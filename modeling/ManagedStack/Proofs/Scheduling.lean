import Mathlib.Algebra.GroupWithZero.Nat
import Mathlib.Data.List.Perm.Basic
import Mathlib.Data.List.Sigma
import ManagedStack.Proofs.Neutrality
import ManagedStack.Proofs.Localized

namespace ManagedStack

/-!
# The order of scans

Threads may be scanned in any order.  A scan works on the stack of its root alone, so
each finds the stack it would have found first, whatever was scanned before it; what it
reports and what it leaves do not depend on the schedule.  The results come in the order
of the roots, and it is in that order that the first error counts.
-/

open Operation

namespace RootScan

/-- However it ends, a scan changes no more than the words of the stack. -/
theorem onlyStack_scanThread
    (env : Env)
    (safepoint : Safepoint) :
    OnlyStack (scanThread env safepoint) := by
  have begins (frame : Frame) : OnlyStack (frame.beginScan env) :=
    .ite (.bind (.inspect _) fun _ => .setBcx _ _ _) (.inspect _)
  have ends (frame : Frame) : OnlyStack (frame.endScan env) :=
    .ite (.bind (.inspect _) fun _ => .setBcx _ _ _) (.inspect _)
  have restoring (frames : List WalkedFrame) : OnlyStack (restoreAll env frames) := by
    induction frames with
    | nil => exact .inspect _
    | cons walked rest inductionHypothesis =>
        exact .bind (ends walked.frame).attempt fun _ =>
          .bind inductionHypothesis fun _ => .inspect _
  have restores (frames : List WalkedFrame) : OnlyStack (restoreFrames env frames) := by
    refine .bind (restoring frames) fun restored => ?_
    cases restored <;> exact .inspect _
  have prepares (thread : ThreadId) (switched frames : List WalkedFrame) :
      OnlyStack (prepareFrames env thread switched frames) := by
    induction frames generalizing switched with
    | nil => exact .inspect _
    | cons walked rest inductionHypothesis =>
        refine .bind (begins walked.frame).attempt fun begun => ?_
        cases begun with
        | ok _ => exact inductionHypothesis _
        | error cause =>
            exact .bind (.inspect _) fun _ => .bind (restores _) fun _ => .inspect _
  refine .bind (.inspect _) fun before => .ite (.inspect _) (.ite (.inspect _) ?_)
  refine .bind (.inspect _) fun frames => .bind (prepares _ _ _) fun _ => ?_
  refine .bind (.inspect _) fun during => ?_
  refine .bind (OnlyStack.inspect _).attempt fun scanned => .bind (restores _) fun _ => ?_
  cases scanned <;> exact .inspect _

end RootScan

namespace ScanRoot

variable {safepoint : Safepoint} {group : ThreadGroup}

/-- A scan works on the thread and the stack of its root, and puts back the stack. -/
theorem scan_eq
    (root : ScanRoot)
    (safepoint : Safepoint)
    (group : ThreadGroup) :
    root.scan safepoint group =
      match group.members[root.stack]?, group.members[root.thread]? with
      | some walked, some scanned =>
          let ran := RootScan.scanThread root.env safepoint
            ⟨scanned.thread, walked.stack, group.records⟩
          (ran.1, group.withStack root.stack ran.2.stack)
      | none, _ => (group.noMember root.stack, group)
      | _, none => (group.noMember root.thread, group) := by
  unfold scan ThreadGroup.onMembers
  rcases group.members[root.stack]? with _ | walked
  · rfl
  rcases found : group.members[root.thread]? with _ | scanned
  · rfl
  have only := RootScan.onlyStack_scanThread root.env safepoint
    ⟨scanned.thread, walked.stack, group.records⟩
  simp only
  rw [only]
  congr 1
  unfold ThreadGroup.withThread ThreadGroup.withStack
  congr 1
  refine Array.ext_getElem? fun index => ?_
  simp only [Array.getElem?_modify]
  by_cases here : root.thread = index
  · subst here
    by_cases same : root.stack = root.thread <;> simp [same, found]
  · simp [here]

/-- The member whose stack is walked, as the scan leaves it. -/
def left?
    (root : ScanRoot)
    (safepoint : Safepoint)
    (group : ThreadGroup) :
    Option Member :=
  (root.scan safepoint group).2.members[root.stack]?

/-- The scan puts all of the group back as it was. -/
def Restores
    (root : ScanRoot)
    (safepoint : Safepoint)
    (group : ThreadGroup) :
    Prop :=
  (root.scan safepoint group).2 = group

/-- Neither of two scans changes a stack that the other walks. -/
def Apart
    (safepoint : Safepoint)
    (group : ThreadGroup)
    (first second : ScanRoot) :
    Prop :=
  first.stack ≠ second.stack ∨
    first.Restores safepoint group ∧ second.Restores safepoint group

theorem Apart.symm
    {first second : ScanRoot}
    (apart : Apart safepoint group first second) :
    Apart safepoint group second first :=
  apart.imp Ne.symm And.symm

end ScanRoot

namespace ThreadGroup

/-- Two groups that may differ in the stacks of some members only. -/
structure SameButStacks
    (changed : Nat → Prop)
    (before after : ThreadGroup) :
    Prop where
  records : after.records = before.records
  size : after.members.size = before.members.size
  thread : ∀ index : Nat, after.members[index]?.map Member.thread =
    before.members[index]?.map Member.thread
  member : ∀ index : Nat, ¬changed index → after.members[index]? = before.members[index]?

namespace SameButStacks

variable {changed : Nat → Prop} {before between after : ThreadGroup}

theorem refl (group : ThreadGroup) : SameButStacks changed group group :=
  ⟨rfl, rfl, fun _ => rfl, fun _ _ => rfl⟩

theorem trans
    {also : Nat → Prop}
    (first : SameButStacks changed before between)
    (second : SameButStacks also between after) :
    SameButStacks (fun index => changed index ∨ also index) before after where
  records := second.records.trans first.records
  size := second.size.trans first.size
  thread index := (second.thread index).trans (first.thread index)
  member index neither :=
    (second.member index fun is => neither (.inr is)).trans
      (first.member index fun is => neither (.inl is))

theorem withStack
    (group : ThreadGroup)
    (index : Nat)
    (stack : Stack) :
    SameButStacks (· = index) group (group.withStack index stack) where
  records := rfl
  size := Array.size_modify
  thread other := by
    simp only [ThreadGroup.withStack, Array.getElem?_modify]
    split
    · rw [Option.map_map]
      rfl
    · rfl
  member other different := by
    simp [ThreadGroup.withStack, Array.getElem?_modify, Ne.symm different]

end SameButStacks

end ThreadGroup

namespace ScanRoot

variable {safepoint : Safepoint} {before after group : ThreadGroup}

/-- A scan changes the stack that it walks and nothing else. -/
theorem sameButStacks_scan
    (root : ScanRoot)
    (safepoint : Safepoint)
    (group : ThreadGroup) :
    ThreadGroup.SameButStacks (· = root.stack) group (root.scan safepoint group).2 := by
  rw [scan_eq]
  split
  · exact .withStack ..
  · exact .refl group
  · exact .refl group

/-- A scan does the same wherever the thread and the stack of its root are the same. -/
theorem scan_congr
    {root : ScanRoot}
    {changed : Nat → Prop}
    (safepoint : Safepoint)
    (same : ThreadGroup.SameButStacks changed before after)
    (walked : after.members[root.stack]? = before.members[root.stack]?) :
    (root.scan safepoint after).1 = (root.scan safepoint before).1 ∧
      root.left? safepoint after = root.left? safepoint before := by
  have thread := same.thread root.thread
  unfold left?
  rw [scan_eq, scan_eq, walked, same.records]
  rcases found : before.members[root.stack]? with _ | walkedMember
  · exact ⟨by simp [ThreadGroup.noMember, same.size], by simp [walked, found]⟩
  rcases one : before.members[root.thread]? with _ | scanned <;>
    rcases other : after.members[root.thread]? with _ | again <;>
    rw [one, other] at thread
  · exact ⟨by simp [ThreadGroup.noMember, same.size], by simp [walked, found]⟩
  · cases thread
  · cases thread
  · have sameThread : again.thread = scanned.thread := Option.some.inj thread
    refine ⟨by simp only [sameThread], ?_⟩
    simp [ThreadGroup.withStack, Array.getElem?_modify, walked, sameThread]

end ScanRoot

namespace RootScan

variable {safepoint : Safepoint} {group now : ThreadGroup}

/-- Every stack that was walked is as its own scan leaves it, and all else as before. -/
structure Settled
    (safepoint : Safepoint)
    (group : ThreadGroup)
    (done : List ScanRoot)
    (now : ThreadGroup) :
    Prop where
  others : ThreadGroup.SameButStacks (fun index => ∃ root ∈ done, root.stack = index)
    group now
  walked : ∀ root ∈ done, now.members[root.stack]? = root.left? safepoint group

namespace Settled

variable {done : List ScanRoot}

theorem nil (group : ThreadGroup) : Settled safepoint group [] group :=
  ⟨.refl group, fun _ isNone => absurd isNone List.not_mem_nil⟩

/-- The stack of a root that is still to be scanned is as it was at first. -/
theorem stack_eq
    {root : ScanRoot}
    (settled : Settled safepoint group done now)
    (apart : ∀ other ∈ done, ScanRoot.Apart safepoint group other root) :
    now.members[root.stack]? = group.members[root.stack]? := by
  by_cases shared : ∃ other ∈ done, other.stack = root.stack
  · obtain ⟨other, inDone, sameStack⟩ := shared
    have restores : other.Restores safepoint group :=
      ((apart other inDone).resolve_left (absurd sameStack)).1
    have left := settled.walked other inDone
    rwa [ScanRoot.left?, restores, sameStack] at left
  · exact settled.others.member root.stack shared

/-- One more scan finds its stack as it was at first, and settles it. -/
theorem step
    {root : ScanRoot}
    (settled : Settled safepoint group done now)
    (apart : ∀ other ∈ done, ScanRoot.Apart safepoint group other root) :
    (root.scan safepoint now).1 = (root.scan safepoint group).1 ∧
      Settled safepoint group (done ++ [root]) (root.scan safepoint now).2 := by
  obtain ⟨sameProbe, sameStack⟩ :=
    ScanRoot.scan_congr safepoint settled.others (settled.stack_eq apart)
  have scanned := root.sameButStacks_scan safepoint now
  refine ⟨sameProbe, ?_, ?_⟩
  · have both := settled.others.trans scanned
    refine ⟨both.records, both.size, both.thread, fun index unwalked => ?_⟩
    refine both.member index fun isWalked => unwalked ?_
    rcases isWalked with ⟨other, inDone, isIndex⟩ | isRoot
    · exact ⟨other, List.mem_append_left _ inDone, isIndex⟩
    · exact ⟨root, by simp, isRoot.symm⟩
  · intro other inBoth
    rcases List.mem_append.mp inBoth with inDone | isRoot
    · by_cases shared : other.stack = root.stack
      · obtain ⟨otherRestores, restores⟩ := (apart other inDone).resolve_left
          (absurd shared)
        rw [shared]
        refine sameStack.trans ?_
        rw [ScanRoot.left?, ScanRoot.left?, restores, otherRestores, shared]
      · rw [scanned.member _ shared]
        exact settled.walked other inDone
    · obtain rfl := List.mem_singleton.mp isRoot
      exact sameStack

/-- What is settled after the scans of the same roots is the same. -/
theorem unique
    {one other : ThreadGroup}
    (first : Settled safepoint group done one)
    (second : Settled safepoint group done other) :
    one = other := by
  have sameMembers : one.members = other.members := by
    refine Array.ext_getElem? fun index => ?_
    by_cases isWalked : ∃ root ∈ done, root.stack = index
    · obtain ⟨root, inDone, rfl⟩ := isWalked
      exact (first.walked root inDone).trans (second.walked root inDone).symm
    · exact (first.others.member index isWalked).trans
        (second.others.member index isWalked).symm
  have sameRecords := first.others.records.trans second.others.records.symm
  cases one
  cases other
  simp_all

/-- It matters which roots were scanned, but not in which order. -/
theorem of_perm
    {reordered : List ScanRoot}
    (settled : Settled safepoint group done now)
    (perm : done.Perm reordered) :
    Settled safepoint group reordered now where
  others := by
    simpa only [perm.mem_iff] using settled.others
  walked root inReordered := settled.walked root (perm.mem_iff.mpr inReordered)

/-- Scans that restore the group leave it as it was. -/
theorem of_restores (restores : ∀ root ∈ done, root.Restores safepoint group) :
    Settled safepoint group done group where
  others := .refl group
  walked root inDone := by
    rw [ScanRoot.left?, restores root inDone]

end Settled

/-- The result of a root whose scan is carried out first. -/
def resultOf
    (safepoint : Safepoint)
    (group : ThreadGroup)
    (root : ScanRoot) :
    RootResult :=
  ⟨root, (root.scan safepoint group).1⟩

/-- A scan that comes to an answer or an error is not given up. -/
theorem fatal?_of_concludes
    {result : RootResult}
    (concludes : result.scan.Concludes) :
    result.fatal? = none := by
  unfold RootResult.fatal?
  rcases concludes with ⟨report, gives⟩ | ⟨cause, raises⟩
  · rw [gives]
  · rw [raises]
    rfl

/-- Unless a scan of a sequence is given up, the others follow it. -/
theorem carryOut_cons
    {independent : Bool}
    {root : ScanRoot}
    (place : Nat)
    (rest : List (ScanRoot × Nat))
    (goesOn : independent = true ∨ (root.scan safepoint now).1.Concludes) :
    carryOut safepoint independent ((root, place) :: rest) now =
      let others := carryOut safepoint independent rest (root.scan safepoint now).2
      ((place, resultOf safepoint now root) :: others.1, others.2) := by
  have unstopped : ¬(!independent && (resultOf safepoint now root).fatal?.isSome) := by
    rcases goesOn with rfl | concludes
    · simp
    · have goesOn : (resultOf safepoint now root).fatal? = none := fatal?_of_concludes concludes
      simp [goesOn]
  exact if_neg unstopped

/-- Whatever was scanned before, each root has the result that it has when it is first. -/
theorem carryOut_of_settled
    {independent : Bool}
    {done : List ScanRoot}
    {schedule : List (ScanRoot × Nat)}
    (settled : Settled safepoint group done now)
    (apart : (done ++ schedule.map Prod.fst).Pairwise (ScanRoot.Apart safepoint group))
    (goesOn : independent = true ∨
      ∀ entry ∈ schedule, (entry.1.scan safepoint group).1.Concludes) :
    (carryOut safepoint independent schedule now).1 =
        schedule.map (fun entry => (entry.2, resultOf safepoint group entry.1)) ∧
      Settled safepoint group (done ++ schedule.map Prod.fst)
        (carryOut safepoint independent schedule now).2 := by
  induction schedule generalizing done now with
  | nil => simpa [carryOut] using settled
  | cons entry rest inductionHypothesis =>
      obtain ⟨root, place⟩ := entry
      have fromDone : ∀ other ∈ done, ScanRoot.Apart safepoint group other root :=
        fun other inDone => (List.pairwise_append.mp apart).2.2 other inDone root
          (by simp)
      obtain ⟨sameProbe, after⟩ := settled.step fromDone
      obtain ⟨results, settles⟩ := inductionHypothesis after (by simpa using apart)
        (goesOn.imp_right fun concludes entry inRest =>
          concludes entry (List.mem_cons_of_mem _ inRest))
      rw [carryOut_cons place rest (goesOn.imp_right fun concludes => by
        rw [sameProbe]
        exact concludes (root, place) List.mem_cons_self)]
      refine ⟨?_, by simpa using settles⟩
      simp only [results, List.map_cons, resultOf, sameProbe]

/-- A result is found under the place of its root. -/
theorem lookup_of_mem
    {schedule : List (ScanRoot × Nat)}
    {root : ScanRoot}
    {place : Nat}
    (result : ScanRoot → RootResult)
    (once : (schedule.map Prod.snd).Nodup)
    (scheduled : (root, place) ∈ schedule) :
    (schedule.map fun entry => (entry.2, result entry.1)).lookup place =
      some (result root) := by
  induction schedule with
  | nil => cases scheduled
  | cons entry rest inductionHypothesis =>
      rw [List.map_cons, List.nodup_cons] at once
      rcases List.mem_cons.mp scheduled with rfl | inRest
      · simp
      · have different : place ≠ entry.2 := by
          rintro rfl
          exact once.1 (List.mem_map.mpr ⟨_, inRest, rfl⟩)
        rw [List.map_cons, List.lookup_cons, beq_false_of_ne different]
        exact inductionHypothesis once.2 inRest

/-- Results under the places of their roots come in the order of the roots. -/
theorem inPlace_eq_map
    {schedule : List (ScanRoot × Nat)}
    {roots : List ScanRoot}
    (result : ScanRoot → RootResult)
    (scheduled : schedule.Perm roots.zipIdx) :
    (List.range schedule.length).filterMap (fun place =>
        (schedule.map fun entry => (entry.2, result entry.1)).lookup place) =
      roots.map result := by
  have once : (schedule.map Prod.snd).Nodup :=
    (scheduled.map Prod.snd).nodup_iff.mpr (List.nodup_zipIdx_map_snd roots)
  have sized : schedule.length = roots.length := by
    rw [scheduled.length_eq, List.length_zipIdx]
  have found : ∀ count ≤ roots.length,
      (List.range count).filterMap (fun place =>
        (schedule.map fun entry => (entry.2, result entry.1)).lookup place) =
          (roots.take count).map result := by
    intro count within
    induction count with
    | zero => rfl
    | succ place inductionHypothesis =>
        have here : (roots[place], place) ∈ schedule := by
          rw [scheduled.mem_iff, List.mem_zipIdx_iff_getElem?]
          exact List.getElem?_eq_getElem within
        rw [List.range_succ, List.filterMap_append, inductionHypothesis (by omega),
          List.take_succ_eq_append_getElem within, List.map_append]
        simp [lookup_of_mem result once here]
  rw [sized, found _ le_rfl, List.take_length]

/-- These counters are the sums of those of all parts. -/
structure IsSum
    (sum : ScanStats)
    (parts : List ScanStats) :
    Prop where
  threads : sum.threads = (parts.map ScanStats.threads).sum
  frames : sum.frames = (parts.map ScanStats.frames).sum
  compiledFrames : sum.compiledFrames = (parts.map ScanStats.compiledFrames).sum
  oops : sum.oops = (parts.map ScanStats.oops).sum

theorem isSum_cons_iff
    {sum first : ScanStats}
    {parts : List ScanStats} :
    IsSum sum (first :: parts) ↔ ∃ others, IsSum others parts ∧ sum = first.add others := by
  constructor
  · intro isSum
    refine ⟨⟨_, _, _, _⟩, ⟨rfl, rfl, rfl, rfl⟩, ?_⟩
    cases sum
    exact ScanStats.mk.injEq .. ▸
      ⟨isSum.threads, isSum.frames, isSum.compiledFrames, isSum.oops⟩
  · rintro ⟨others, isSum, rfl⟩
    constructor <;> simp [ScanStats.add, isSum.threads, isSum.frames,
      isSum.compiledFrames, isSum.oops]

/-- The answer to several scans, with their results in the order of the roots. -/
structure Summarizes
    (results : List RootResult)
    (answer : Except (Failure FrameError) ScanStats) :
    Prop where
  /-- It is good exactly if all scans were, and each counter is the sum. -/
  ok_iff : ∀ stats, answer = .ok stats ↔
    ∃ reports : List ScanReport,
      results.map (fun result => result.scan.outcome) = reports.map .ok ∧
        IsSum stats (reports.map ScanReport.stats)
  /-- It is an error exactly if that is the error of the first root that failed. -/
  error_iff : (∀ result ∈ results, result.scan.Concludes) → ∀ cause,
    answer = .error (.error cause) ↔
      ∃ good failing others, results = good ++ failing :: others ∧
        (∀ result ∈ good, ∃ report, result.scan.Gives report) ∧
          failing.scan.Raises cause

theorem sumStats_cons_of_gives
    {result : RootResult}
    {report : ScanReport}
    (gives : result.scan.Gives report)
    (rest : List RootResult) :
    sumStats (result :: rest) = (sumStats rest).map report.stats.add := by
  rw [sumStats, gives]

theorem sumStats_cons_of_error
    {result : RootResult}
    {failure : Failure FrameError}
    (fails : result.scan.outcome = .error failure)
    (rest : List RootResult) :
    sumStats (result :: rest) = .error failure := by
  rw [sumStats, fails]

/-- A failed scan ends the sum, so that a sum is made of reports only. -/
theorem sumStats_eq_ok_iff
    {results : List RootResult}
    {stats : ScanStats} :
    sumStats results = .ok stats ↔
      ∃ reports : List ScanReport,
        results.map (fun result => result.scan.outcome) = reports.map .ok ∧
          IsSum stats (reports.map ScanReport.stats) := by
  induction results generalizing stats with
  | nil =>
      constructor
      · rintro ⟨⟩
        exact ⟨[], rfl, rfl, rfl, rfl, rfl⟩
      · rintro ⟨reports, none, isSum⟩
        obtain rfl := List.map_eq_nil_iff.mp none.symm
        cases stats
        exact congrArg Except.ok (ScanStats.mk.injEq .. ▸
          ⟨isSum.threads.symm, isSum.frames.symm, isSum.compiledFrames.symm,
            isSum.oops.symm⟩)
  | cons result rest inductionHypothesis =>
      rcases ends : result.scan.outcome with failure | report
      · rw [sumStats_cons_of_error ends]
        refine ⟨nofun, ?_⟩
        rintro ⟨reports, all, -⟩
        rw [List.map_cons, ends] at all
        cases reports <;> cases all
      · rw [sumStats_cons_of_gives ends, List.map_cons, ends]
        constructor
        · intro sums
          obtain ⟨others, ofRest, rfl⟩ : ∃ others, sumStats rest = .ok others ∧
              report.stats.add others = stats := by
            rcases ofRest : sumStats rest with failure | others
            · rw [ofRest] at sums
              cases sums
            · rw [ofRest] at sums
              exact ⟨others, rfl, Except.ok.inj sums⟩
          obtain ⟨reports, all, isSum⟩ := inductionHypothesis.mp ofRest
          exact ⟨report :: reports, by rw [all, List.map_cons],
            isSum_cons_iff.mpr ⟨others, isSum, rfl⟩⟩
        · rintro ⟨reports, all, isSum⟩
          obtain ⟨first, reports, rfl, isFirst, allRest⟩ :=
            List.map_eq_cons_iff.mp all.symm
          obtain rfl := Except.ok.inj isFirst
          obtain ⟨others, restSum, rfl⟩ := isSum_cons_iff.mp isSum
          rw [inductionHypothesis.mpr ⟨reports, allRest.symm, restSum⟩]
          rfl

theorem sumStats_eq_error_iff
    {results : List RootResult}
    {failure : Failure FrameError} :
    sumStats results = .error failure ↔
      ∃ good failing others, results = good ++ failing :: others ∧
        (∀ result ∈ good, ∃ report, result.scan.Gives report) ∧
          failing.scan.outcome = .error failure := by
  constructor
  · intro fails
    induction results with
    | nil => cases fails
    | cons result rest inductionHypothesis =>
        rcases ends : result.scan.outcome with first | report
        · rw [sumStats_cons_of_error ends] at fails
          obtain rfl := Except.error.inj fails
          exact ⟨[], result, rest, rfl,
            fun _ isNone => absurd isNone List.not_mem_nil, ends⟩
        · have restFails : sumStats rest = .error failure := by
            rw [sumStats_cons_of_gives ends] at fails
            rcases ofRest : sumStats rest with first | others
            · rw [ofRest] at fails
              exact fails
            · rw [ofRest] at fails
              cases fails
          obtain ⟨good, failing, others, rfl, allGood, failed⟩ :=
            inductionHypothesis restFails
          refine ⟨result :: good, failing, others, rfl, ?_, failed⟩
          rintro other (_ | ⟨_, inGood⟩)
          · exact ⟨report, ends⟩
          · exact allGood other inGood
  · rintro ⟨good, failing, others, rfl, allGood, failed⟩
    induction good with
    | nil => exact sumStats_cons_of_error failed others
    | cons result good inductionHypothesis =>
        obtain ⟨report, gives⟩ := allGood result List.mem_cons_self
        rw [List.cons_append, sumStats_cons_of_gives gives, inductionHypothesis
          fun other inGood => allGood other (List.mem_cons_of_mem _ inGood)]
        rfl

/-- Where no scan is given up the first failure counts. -/
theorem total_eq_sumStats
    {results : List RootResult}
    (concludes : ∀ result ∈ results, result.scan.Concludes) :
    total results = sumStats results := by
  have unspoilt : results.findSome? RootResult.fatal? = none :=
    List.findSome?_eq_none_iff.mpr fun result inResults =>
      fatal?_of_concludes (concludes result inResults)
  rw [total, unspoilt]

/-- The overall answer to scans sums them up, however each of them ended. -/
theorem summarizes_total (results : List RootResult) :
    Summarizes results (total results) where
  ok_iff stats := by
    rw [← sumStats_eq_ok_iff]
    constructor
    · intro ends
      unfold total at ends
      split at ends
      · cases ends
      · exact ends
    · intro ends
      obtain ⟨reports, all, -⟩ := sumStats_eq_ok_iff.mp ends
      rw [total_eq_sumStats fun result inResults => ?_, ends]
      obtain ⟨report, -, gives⟩ := List.mem_map.mp
        (all ▸ List.mem_map_of_mem inResults : result.scan.outcome ∈ reports.map .ok)
      exact .inl ⟨report, gives.symm⟩
  error_iff concludes cause := by
    rw [total_eq_sumStats concludes, sumStats_eq_error_iff]
    rfl

/--
What scanning roots comes to, whatever their schedule.

Each root has the result, with the slots that its visitor received, of a scan of the
group as it was at first.
-/
structure ScansEach
    (safepoint : Safepoint)
    (group : ThreadGroup)
    (roots : List ScanRoot)
    (ran : List RootResult × ThreadGroup) :
    Prop where
  /-- Every root is scanned, also after others failed. -/
  results : ran.1 = roots.map (resultOf safepoint group)
  /-- Each stack ends as the scan of its own root leaves it. -/
  settled : Settled safepoint group roots ran.2
  unchanged : (∀ root ∈ roots, root.Restores safepoint group) → ran.2 = group
  answer : Summarizes (roots.map (resultOf safepoint group)) (total ran.1)

/-- The error of the first root that fails is the overall answer. -/
theorem ScansEach.total_eq_error
    {safepoint : Safepoint}
    {group : ThreadGroup}
    {others : List ScanRoot}
    {failing : ScanRoot}
    {ran : List RootResult × ThreadGroup}
    {cause : FrameError}
    (good : List ScanRoot)
    (scans : ScansEach safepoint group (good ++ failing :: others) ran)
    (concludes : ∀ root ∈ good ++ failing :: others,
      (root.scan safepoint group).1.Concludes)
    (allGood : ∀ root ∈ good, ∃ report, (root.scan safepoint group).1.Gives report)
    (fails : (failing.scan safepoint group).1.Raises cause) :
    total ran.1 = .error (.error cause) := by
  refine (scans.answer.error_iff ?_ cause).mpr
    ⟨good.map (resultOf safepoint group), resultOf safepoint group failing,
      others.map (resultOf safepoint group), by simp, ?_, fails⟩
  · intro result inResults
    obtain ⟨root, inRoots, rfl⟩ := List.mem_map.mp inResults
    exact concludes root inRoots
  · intro result isGood
    obtain ⟨root, inGood, rfl⟩ := List.mem_map.mp isGood
    exact allGood root inGood

/--
The order in which roots are scanned does not matter.

Each scan may leave its stack changed where no other root walks that stack, as for
threads with stacks of their own; scans that restore their stacks may share one.
-/
theorem scansEach_of_perm
    {safepoint : Safepoint}
    {independent : Bool}
    {group : ThreadGroup}
    {roots : List ScanRoot}
    {schedule : List (ScanRoot × Nat)}
    (scheduled : schedule.Perm roots.zipIdx)
    (apart : roots.Pairwise (ScanRoot.Apart safepoint group))
    (goesOn : independent = true ∨
      ∀ root ∈ roots, (root.scan safepoint group).1.Concludes) :
    ScansEach safepoint group roots (scanRoots safepoint independent schedule group) ∧
      scanRoots safepoint independent schedule group =
        scanRoots safepoint independent roots.zipIdx group := by
  have scans {schedule : List (ScanRoot × Nat)} (scheduled : schedule.Perm roots.zipIdx) :
      ScansEach safepoint group roots
        (scanRoots safepoint independent schedule group) := by
    have perm : (schedule.map Prod.fst).Perm roots := by
      simpa using scheduled.map Prod.fst
    have inReach : independent = true ∨
        ∀ entry ∈ schedule, (entry.1.scan safepoint group).1.Concludes :=
      goesOn.imp_right fun concludes entry isScheduled =>
        concludes entry.1 (perm.mem_iff.mp (List.mem_map_of_mem isScheduled))
    obtain ⟨done, settled⟩ := carryOut_of_settled (Settled.nil group)
      (apart.perm perm.symm ScanRoot.Apart.symm) inReach
    have results : (scanRoots safepoint independent schedule group).1 =
        roots.map (resultOf safepoint group) := by
      rw [← inPlace_eq_map (resultOf safepoint group) scheduled, ← done]
      rfl
    have settles : Settled safepoint group roots
        (scanRoots safepoint independent schedule group).2 :=
      Settled.of_perm settled perm
    refine ⟨results, settles, fun restores => ?_, ?_⟩
    · exact settles.unique (.of_restores restores)
    · rw [results]
      exact summarizes_total _
  have reordered := scans scheduled
  have inOrder := scans (.refl roots.zipIdx)
  exact ⟨reordered, Prod.ext (reordered.results.trans inOrder.results.symm)
    (reordered.settled.unique inOrder.settled)⟩

end RootScan

namespace Trio

/-- A thread with the stack of the caller and its callee. -/
def member (id : ThreadId) : Member where
  thread := { Pair.entered.machine.thread with id := id }
  stack := Pair.entered.machine.stack

def group : ThreadGroup where
  members := #[member 1, member 2, member 3]
  records := Pair.entered.machine.records

/-- The scan of this root goes well. -/
def first : ScanRoot :=
  ⟨0, 0, Pair.context.env⟩

/-- The method table of this root lacks the caller. -/
def second : ScanRoot :=
  ⟨1, 1, Pair.partlyResolved⟩

/-- The method table of this root lacks the callee, too. -/
def third : ScanRoot :=
  ⟨2, 2, { Pair.context.env with methods := ⟨[]⟩ }⟩

/-- How the scan of a root ends when it is carried out first. -/
def ending (root : ScanRoot) : Except (Failure FrameError) Unit :=
  (root.scan ⟨true, []⟩ group).1.outcome.map fun _ => ()

theorem ending_first : ending first = .ok () := by
  decide +kernel

theorem ending_second :
    ending second = .error (.error (.unknownMethod Pair.caller.id)) := by
  decide +kernel

theorem ending_third :
    ending third = .error (.error (.unknownMethod Pair.callee.id)) := by
  decide +kernel

theorem gives_of_ending
    {root : ScanRoot}
    (ends : ending root = .ok ()) :
    ∃ report, (root.scan ⟨true, []⟩ group).1.Gives report := by
  unfold ending at ends
  rcases ran : (root.scan ⟨true, []⟩ group).1.outcome with failure | report
  · rw [ran] at ends
    cases ends
  · exact ⟨report, ran⟩

theorem raises_of_ending
    {root : ScanRoot}
    {cause : FrameError}
    (ends : ending root = .error (.error cause)) :
    (root.scan ⟨true, []⟩ group).1.Raises cause := by
  unfold ending at ends
  rcases ran : (root.scan ⟨true, []⟩ group).1.outcome with failure | report
  · rw [ran] at ends
    exact ran.trans (congrArg Except.error (Except.error.inj ends))
  · rw [ran] at ends
    cases ends

theorem concludes :
    ∀ root ∈ [first, second, third], (root.scan ⟨true, []⟩ group).1.Concludes := by
  intro root inRoots
  simp only [List.mem_cons, List.not_mem_nil, or_false] at inRoots
  rcases inRoots with isFirst | isSecond | isThird
  · rw [isFirst]
    exact .inl (gives_of_ending ending_first)
  · rw [isSecond]
    exact .inr ⟨_, raises_of_ending ending_second⟩
  · rw [isThird]
    exact .inr ⟨_, raises_of_ending ending_third⟩

end Trio

namespace RootScan

/--
The last of three roots is scanned first and fails; the second fails as well.  All are
scanned, and the error is that of the second root, which is the first to fail in the
order of the roots.
-/
theorem scansEach_trio :
    let roots := [Trio.first, Trio.second, Trio.third]
    let schedule := [(Trio.third, 2), (Trio.second, 1), (Trio.first, 0)]
    schedule.Perm roots.zipIdx ∧
      roots.Pairwise (ScanRoot.Apart ⟨true, []⟩ Trio.group) ∧
      (∀ root ∈ roots, (root.scan ⟨true, []⟩ Trio.group).1.Concludes) ∧
      (ScansEach ⟨true, []⟩ Trio.group roots
          (scanRoots ⟨true, []⟩ false schedule Trio.group) ∧
        scanRoots ⟨true, []⟩ false schedule Trio.group =
          scanRoots ⟨true, []⟩ false roots.zipIdx Trio.group) ∧
      total (scanRoots ⟨true, []⟩ false schedule Trio.group).1 =
        .error (.error (.unknownMethod Pair.caller.id)) := by
  intro roots schedule
  have perm : schedule.Perm roots.zipIdx := List.reverse_perm roots.zipIdx
  have apart : roots.Pairwise (ScanRoot.Apart ⟨true, []⟩ Trio.group) := by
    simp [roots, ScanRoot.Apart, Trio.first, Trio.second, Trio.third]
  have goesOn : false = true ∨
      ∀ root ∈ roots, (root.scan ⟨true, []⟩ Trio.group).1.Concludes :=
    .inr Trio.concludes
  have scans := scansEach_of_perm perm apart goesOn
  refine ⟨perm, apart, Trio.concludes, scans, ?_⟩
  refine ScansEach.total_eq_error [Trio.first] scans.1 Trio.concludes ?_
    (Trio.raises_of_ending Trio.ending_second)
  intro root isFirst
  obtain rfl := List.mem_singleton.mp isFirst
  exact Trio.gives_of_ending Trio.ending_first

end RootScan

end ManagedStack
