import ManagedStack.Proofs.Requesting
import ManagedStack.Proofs.Transparency

namespace ManagedStack

/-!
# Requests that are made again

A frame that was redirected may be asked for again, through a view from before, through
the view that the first request left, or through a view that a new step to the frame has
built.  A view from before redirects the frame once more, with the same record and the
same handler, and the others know that it has been redirected.  Either way the machine is
as the first request left it.
-/

open Operation

theorem Stack.put_of_index?
    {stack : Stack}
    {address : Address}
    {index : Nat}
    (found : stack.index? address = .ok index)
    (word : Word) :
    stack.put address word = stack.set index word := by
  rw [put, found]

/-- A word that is put again makes no difference. -/
theorem Stack.put_put
    (stack : Stack)
    (address : Address)
    (word : Word) :
    (stack.put address word).put address word = stack.put address word := by
  by_cases covers : stack.Covers address
  · have found := index?_of_covers covers
    have coversAfter : (stack.put address word).Covers address := covers_put.mpr covers
    have foundAfter := index?_of_covers coversAfter
    rw [limit_put] at foundAfter
    rw [put_of_index? foundAfter, put_of_index? found]
    simp [set]
  · obtain ⟨access, missing⟩ := exists_index?_of_not_covers covers
    have kept : stack.put address word = stack := by simp [put, missing]
    rw [kept, kept]

namespace DeoptRecords

variable {records : DeoptRecords} {unitStart frameId pc : Address}

/-- A record that is made again makes no difference. -/
theorem record_record :
    (records.record unitStart frameId pc).record unitStart frameId pc =
      records.record unitStart frameId pc := by
  have set : isAbout unitStart frameId ⟨unitStart, frameId, pc⟩ = true := by
    simp [isAbout]
  simp [record, forget, set, List.filter_filter]

end DeoptRecords

namespace Frame

variable {env : Env} {frame callee : Frame} {before : Machine} {blob : Blob}
  {compiled : CompiledUnit} {handler : Address}

/-- A frame that is redirected again is redirected as before. -/
theorem redirection_redirection
    (frame : Frame)
    (blob : Blob)
    (handler : Address)
    (machine : Machine) :
    frame.redirection blob handler (frame.redirection blob handler machine) =
      frame.redirection blob handler machine := by
  conv_lhs => rw [redirection]
  rw [stack_redirection, records_redirection, thread_redirection, Stack.put_put,
    DeoptRecords.record_record, redirection]

/-- A view of a frame is a marked one once the frame was redirected through it. -/
theorem Redirectable.repointed_handlerFor
    {view : View}
    (fit : frame.Redirectable blob compiled)
    (ordered : view.code.Ordered)
    (runsIn : view.code.find? frame.pc = some blob)
    (recorded : view.records.displacedPc? blob.start frame.id = some frame.pc) :
    frame.repointed view (compiled.handlerFor frame.pc) = frame.marked := by
  have found := ordered.find?_handlerFor runsIn fit.unit frame.pc
  have resumes : ({ frame with pc := compiled.handlerFor frame.pc, blob := some blob } :
      Frame).resumesAtHandler = true := by
    simp [resumesAtHandler, compiled?, fit.unit, CompiledUnit.isDeoptPc_handlerFor]
  have known : ({ frame with pc := compiled.handlerFor frame.pc, blob := some blob } :
      Frame).recordedPc? view.records = some frame.pc := by
    simpa [recordedPc?, id] using recorded
  simp [repointed, found, resumes, known, marked, fit.runsIn]

/-- A redirected frame is not redirected again. -/
theorem gives_deoptimize_marked
    (kind : frame.kind = .compiled)
    (env : Env)
    (request : DeoptRequest)
    (machine : Machine) :
    (frame.marked.deoptimize env request).Gives machine
      (.alreadyDeoptimized, frame.marked) machine :=
  gives_deoptimize.mpr (.already kind rfl)

/-- What a request found that redirected a frame to which a step had led. -/
structure Patches
    (env : Env)
    (callee frame : Frame)
    (handler : Address)
    (before after : Machine)
    (blob : Blob)
    (compiled : CompiledUnit) :
    Prop where
  eligible : frame.Eligible blob compiled
  runsIn : env.code.find? frame.pc = some blob
  covers : before.stack.Covers frame.returnSlot
  isHandler : handler = compiled.handlerFor frame.pc
  isAfter : after = frame.redirection blob handler before
  /-- Another step leads to the frame still, and finds it redirected. -/
  stepsAgain : ∀ map, ∃ mapAfter, (callee.sender (after.view env)).Gives map frame.marked
    mapAfter

section Patches

variable {after : Machine} {map mapAfter : RegisterMap} {request : DeoptRequest}
  {seen : Frame}

/-- The request that redirected a frame found it so. -/
theorem exists_patches
    (separates : env.layout.SeparatesReturn)
    (built : env.code.Built)
    (steps : (callee.sender (before.view env)).Gives map frame mapAfter)
    (notEntry : callee.kind ≠ .entry)
    (notRicochet : callee.kind ≠ .ricochet)
    (elsewhere : frame.resumesAtHandler = false)
    (gives : (frame.deoptimize env request).Gives before (.patched handler, seen)
      after) :
    ∃ blob compiled, Patches env callee frame handler before after blob compiled ∧
      seen = frame.marked := by
  cases gives_deoptimize.mp gives with
  | @redirected blob compiled _ _ _ eligible allowed redirects =>
    obtain ⟨same, covers, rfl, rfl⟩ := gives_redirect.mp redirects
    obtain rfl := DeoptOutcome.patched.inj same
    have ordered := built.ordered
    obtain ⟨adjusts, unextendedSp, fp, pc, isFrame, -, returning⟩ :=
      (gives_sender_iff.mp steps).returning separates notEntry notRicochet
    obtain ⟨-, samePc, runsIn, -⟩ := eligible.toRedirectable.arrived elsewhere isFrame
    rw [← samePc] at runsIn
    have recorded : (frame.redirection blob (compiled.handlerFor frame.pc)
        before).records.displacedPc? blob.start frame.id = some frame.pc := by
      rw [records_redirection]
      exact before.records.displacedPc?_record_same _ _ _
    refine ⟨blob, compiled, ⟨eligible, runsIn, covers, rfl, rfl, fun other => ?_⟩,
      eligible.toRedirectable.repointed_handlerFor ordered runsIn recorded⟩
    have again := returning
      (frame.redirection blob (compiled.handlerFor frame.pc) before).stack
      (frame.redirection blob (compiled.handlerFor frame.pc) before).records
      (compiled.handlerFor frame.pc)
      (by
        rw [stack_redirection]
        exact .put before.stack _ fun kept => kept rfl)
      (by
        rw [stack_redirection]
        exact Stack.holds_put_same covers)
    rw [eligible.toRedirectable.resolved_handlerFor ordered elsewhere isFrame recorded]
      at again
    obtain ⟨otherAfter, steps⟩ :=
      again.of_map (fun isRicochet => (notRicochet isRicochet).elim) other
    exact ⟨otherAfter, gives_sender_iff.mpr steps⟩

/-- A view from before the request redirects the frame as the request did. -/
theorem Patches.gives_deoptimize
    (patches : Patches env callee frame handler before after blob compiled)
    (ordered : env.code.Ordered)
    (byOwner : request.byOwner = true) :
    (frame.deoptimize env request).Gives after (.patched handler, frame.marked) after := by
  obtain ⟨eligible, runsIn, covers, rfl, rfl, -⟩ := patches
  have recorded : (frame.redirection blob (compiled.handlerFor frame.pc)
      before).records.displacedPc? blob.start frame.id = some frame.pc := by
    rw [records_redirection]
    exact before.records.displacedPc?_record_same _ _ _
  refine eligible.gives_deoptimize.mpr (.inr ⟨by simp [byOwner], gives_redirect.mpr
    ⟨rfl, ?_, (frame.redirection_redirection _ _ _).symm, ?_⟩⟩)
  · rw [stack_redirection]
    exact Stack.covers_put.mpr covers
  · exact (eligible.toRedirectable.repointed_handlerFor ordered runsIn recorded).symm

end Patches

end Frame

/-- What the owner of a thread does with the views of a frame. -/
inductive RevisitEvent where
  /-- Ask for the frame through one of the views. -/
  | request (index : Nat) (request : DeoptRequest)
  /-- Step to the frame again. -/
  | step (map : RegisterMap)

/-- A machine, the views of a frame so far, and what came of the requests for it. -/
structure Revisits where
  machine : Machine
  /-- A view that was asked through stays, and so does the view that this left. -/
  views : List Frame
  answers : List (Except (Failure FrameError) DeoptOutcome)

namespace Revisits

/-- What an event leaves, whether it comes to an answer or not. -/
def after
    (env : Env)
    (callee : Frame)
    (revisits : Revisits) :
    RevisitEvent → Revisits
  | .request index request =>
      match revisits.views[index]? with
      | none => revisits
      | some view =>
          match (view.deoptimize env { request with byOwner := true }).ending
              revisits.machine with
          | (.ok (outcome, seen), machine) =>
              ⟨machine, seen :: revisits.views, .ok outcome :: revisits.answers⟩
          | (.error failure, machine) =>
              ⟨machine, revisits.views, .error failure :: revisits.answers⟩
  | .step map =>
      match (callee.sender (revisits.machine.view env)).ending map with
      | (.ok seen, _) => { revisits with views := seen :: revisits.views }
      | (.error _, _) => revisits

section After

variable {env : Env} {callee view seen : Frame} {revisits : Revisits} {index : Nat}
  {request : DeoptRequest} {outcome : DeoptOutcome} {machine : Machine}
  {map mapAfter : RegisterMap}

theorem after_request_of_gives
    (isView : revisits.views[index]? = some view)
    (gives : (view.deoptimize env { request with byOwner := true }).Gives
      revisits.machine (outcome, seen) machine) :
    revisits.after env callee (.request index request) =
      ⟨machine, seen :: revisits.views, .ok outcome :: revisits.answers⟩ := by
  simp only [after, isView, ending_of_gives gives]

theorem after_request_of_none (noView : revisits.views[index]? = none) :
    revisits.after env callee (.request index request) = revisits := by
  simp only [after, noView]

theorem after_step_of_gives
    (gives : (callee.sender (revisits.machine.view env)).Gives map seen mapAfter) :
    revisits.after env callee (.step map) =
      { revisits with views := seen :: revisits.views } := by
  simp only [after, ending_of_gives gives]

end After

/-- What a run of events leaves. -/
def run
    (env : Env)
    (callee : Frame)
    (revisits : Revisits)
    (events : List RevisitEvent) :
    Revisits :=
  events.foldl (after env callee) revisits

/-- Nothing has changed since a frame was redirected, and every request said so. -/
structure Settled
    (frame : Frame)
    (handler : Address)
    (first : Machine)
    (revisits : Revisits) :
    Prop where
  machine : revisits.machine = first
  views : ∀ view ∈ revisits.views, view = frame ∨ view = frame.marked
  answers : ∀ answer ∈ revisits.answers,
    answer = .ok (.patched handler) ∨ answer = .ok .alreadyDeoptimized

namespace Settled

variable {env : Env} {callee frame : Frame} {handler : Address} {before first : Machine}
  {blob : Blob} {compiled : CompiledUnit} {revisits : Revisits}

/-- Seeing the frame redirected changes nothing. -/
theorem see
    (settled : revisits.Settled frame handler first) :
    ({ revisits with views := frame.marked :: revisits.views } :
      Revisits).Settled frame handler first where
  machine := settled.machine
  views := by
    intro view member
    rcases List.mem_cons.mp member with rfl | member
    · exact .inr rfl
    · exact settled.views view member
  answers := settled.answers

/-- A request that said so changes nothing. -/
theorem answer
    {outcome : DeoptOutcome}
    (settled : revisits.Settled frame handler first)
    (expected : outcome = .patched handler ∨ outcome = .alreadyDeoptimized) :
    (⟨first, frame.marked :: revisits.views, .ok outcome :: revisits.answers⟩ :
      Revisits).Settled frame handler first where
  machine := rfl
  views := settled.see.views
  answers := by
    intro answer member
    rcases List.mem_cons.mp member with rfl | member
    · exact expected.imp (congrArg Except.ok) (congrArg Except.ok)
    · exact settled.answers answer member

/-- No request and no step changes anything. -/
theorem after
    (settled : revisits.Settled frame handler first)
    (patches : Frame.Patches env callee frame handler before first blob compiled)
    (ordered : env.code.Ordered)
    (event : RevisitEvent) :
    (revisits.after env callee event).Settled frame handler first := by
  have now : first = revisits.machine := settled.machine.symm
  subst now
  cases event with
  | request index request =>
    cases isView : revisits.views[index]? with
    | none => rwa [after_request_of_none isView]
    | some view =>
      have asks : ({ request with byOwner := true } : DeoptRequest).byOwner = true := rfl
      rcases settled.views view (List.mem_of_getElem? isView) with rfl | rfl
      · rw [after_request_of_gives isView (patches.gives_deoptimize ordered asks)]
        exact settled.answer (.inl rfl)
      · rw [after_request_of_gives isView
          (Frame.gives_deoptimize_marked patches.eligible.kind env _ revisits.machine)]
        exact settled.answer (.inr rfl)
  | step map =>
    obtain ⟨mapAfter, steps⟩ := patches.stepsAgain map
    rw [after_step_of_gives steps]
    exact settled.see

theorem run
    (settled : revisits.Settled frame handler first)
    (patches : Frame.Patches env callee frame handler before first blob compiled)
    (ordered : env.code.Ordered)
    (events : List RevisitEvent) :
    (revisits.run env callee events).Settled frame handler first := by
  induction events generalizing revisits with
  | nil => exact settled
  | cons event rest inductionHypothesis =>
      exact inductionHypothesis (settled.after patches ordered event)

end Settled

end Revisits

namespace Frame

section Repetition

variable {env : Env} {callee frame seen : Frame} {handler : Address}
  {before first : Machine} {map mapAfter : RegisterMap} {request : DeoptRequest}

/-- What views of a frame agree about, before it is redirected and after. -/
structure Agrees (view frame : Frame) : Prop where
  id : view.id = frame.id
  pc : view.pc = frame.pc
  deoptimizable : view.canBeDeoptimized = frame.canBeDeoptimized

/--
Once a frame to which a step led has been redirected, its owner may ask for it again
through any of its views, and step to it again: every request answers that the frame is
redirected to the same handler, or that it has been, and the machine stays as the first
request left it, with one entry about the frame and the handler in its return slot.
-/
theorem requests_idempotent
    (separates : env.layout.SeparatesReturn)
    (built : env.code.Built)
    (steps : (callee.sender (before.view env)).Gives map frame mapAfter)
    (notEntry : callee.kind ≠ .entry)
    (notRicochet : callee.kind ≠ .ricochet)
    (elsewhere : frame.resumesAtHandler = false)
    (gives : (frame.deoptimize env request).Gives before (.patched handler, seen) first)
    (events : List RevisitEvent) :
    let last := (Revisits.mk first [frame, seen] []).run env callee events
    (∀ answer ∈ last.answers,
        answer = .ok (.patched handler) ∨ answer = .ok .alreadyDeoptimized) ∧
      (∀ view ∈ last.views, view.Agrees frame) ∧
      last.machine = first ∧
      first.stack.Holds frame.returnSlot handler ∧
      ∃ blob, env.code.find? frame.pc = some blob ∧
        before.records.SetsOne first.records blob.start frame.id frame.pc := by
  intro last
  obtain ⟨blob, compiled, patches, rfl⟩ :=
    exists_patches separates built steps notEntry notRicochet elsewhere gives
  have begun : (Revisits.mk first [frame, frame.marked] []).Settled frame handler first :=
    ⟨rfl, fun view member => by simpa using member, fun answer member => nomatch member⟩
  have settled : last.Settled frame handler first :=
    begun.run patches built.ordered events
  refine ⟨settled.answers, fun view member => ?_, settled.machine, ?_, blob,
    patches.runsIn, ?_⟩
  · rcases settled.views view member with rfl | rfl <;> exact ⟨rfl, rfl, rfl⟩
  · rw [patches.isAfter, stack_redirection]
    exact Stack.holds_put_same patches.covers
  · rw [patches.isAfter, records_redirection]
    exact before.records.setsOne_record _ _ _

end Repetition

end Frame

namespace Nested

/-- A view from before, the view that a step from the stub builds, and both again. -/
def revisited : List RevisitEvent :=
  [.request 0 request, .step (.empty true), .request 0 request, .request 3 request,
    .step (.empty false), .request 1 request]

theorem requests_idempotent_called :
    env.layout.SeparatesReturn ∧ env.code.Built ∧
      (start.sender (before.view env)).Gives (.empty false) called (.empty false) ∧
        start.kind ≠ .entry ∧ start.kind ≠ .ricochet ∧
          called.resumesAtHandler = false ∧
            (called.deoptimize env request).Gives before (.patched 0x4800, called.marked)
              (called.deoptimize env request before).2 ∧
            ((Revisits.mk (called.deoptimize env request before).2
              [called, called.marked] []).run env start revisited).machine =
                (called.deoptimize env request before).2 := by
  have steps : (start.sender (before.view env)).Gives (.empty false) called
      (.empty false) :=
    ⟨rfl, rfl⟩
  have gives : (called.deoptimize env request).Gives before
      (.patched 0x4800, called.marked) (called.deoptimize env request before).2 :=
    ⟨rfl, rfl⟩
  exact ⟨FrameLayout.separatesReturn_x86_64, built, steps, by decide, by decide,
    by decide, gives,
    (Frame.requests_idempotent FrameLayout.separatesReturn_x86_64 built steps (by decide)
      (by decide) (by decide) gives revisited).2.2.1⟩

end Nested

end ManagedStack
