import ManagedStack.Proofs.Runs

namespace ManagedStack

/-!
# Publishing registers

Between two requests the registers of an activation stand in its frame.  Publishing
writes five slots; if those are apart from each other, each of them holds its
register afterwards, and in any case no other place changes.  A profiling
interpreter converts the profiling word on the way, but that word is then written
again, so that the outcome is the same.
-/

open Operation

namespace Frame

/--
What a store of the position word does to the stack.  The profiling word is converted
only where the position changes its form.
-/
theorem gives_setBcx
    {frame : Frame}
    {env : Env}
    {position : Word}
    {before after : Machine}
    {value : Unit}
    (gives : (frame.setBcx env position).Gives before value after) :
    frame.kind = .interpreted ∧
      ∃ stack, after = { before with stack := stack } ∧
        before.stack.Covers (frame.slot env.layout.bcx) ∧
        Stack.Keeps
          (fun place => (frame.slot env.layout.bcx).toNat ≠ place ∧
            (frame.slot env.layout.mdx).toNat ≠ place)
          before.stack stack ∧
        (frame.slot env.layout.bcx ≠ frame.slot env.layout.mdx →
          stack.Holds (frame.slot env.layout.bcx) position) := by
  simp only [setBcx, expectInterpreted, putField, setMdx, gives_bind,
    gives_lift, Machine.gives_look, Machine.gives_write, gives_check,
    gives_ite, and_assoc, exists_and_left, exists_eq_left, exists_const]
    at gives
  obtain ⟨_, isInterpreted, written⟩ := gives
  have kind : frame.kind = .interpreted := by
    unfold expectKind at isInterpreted
    split at isInterpreted
    · assumption
    · exact (Probe.gives_fail isInterpreted).elim
  have once
      (covers : before.stack.Covers (frame.slot env.layout.bcx))
      (changed : after = { before with
        stack := before.stack.put (frame.slot env.layout.bcx) position }) :
      ∃ stack, after = { before with stack := stack } ∧
        before.stack.Covers (frame.slot env.layout.bcx) ∧
        Stack.Keeps
          (fun place => (frame.slot env.layout.bcx).toNat ≠ place ∧
            (frame.slot env.layout.mdx).toNat ≠ place)
          before.stack stack ∧
        (frame.slot env.layout.bcx ≠ frame.slot env.layout.mdx →
          stack.Holds (frame.slot env.layout.bcx) position) :=
    ⟨_, changed, covers, .put _ _ fun outside => outside.1 rfl,
      fun _ => Stack.holds_put_same covers⟩
  refine ⟨kind, ?_⟩
  rcases written with
    ⟨-, _, -, _, -, ⟨-, covers, changed⟩ |
      ⟨-, converted, -, covers, _, -, -, changed⟩⟩ | ⟨-, covers, changed⟩
  · exact once covers changed
  · refine ⟨_, changed, covers, ?_, ?_⟩
    · exact (Stack.Keeps.put _ _ fun outside => outside.1 rfl).trans
        (.put _ _ fun outside => outside.2 rfl)
    · intro apart
      exact (Stack.holds_put_of_ne apart).mpr (Stack.holds_put_same covers)
  · exact once covers changed

/-- An interpreter that does not profile stores a position wherever it is. -/
theorem exists_gives_setBcx
    {frame : Frame}
    {env : Env}
    {before : Machine}
    (unprofiled : env.diagnostics.profileInterpreter = false)
    (interpreted : frame.kind = .interpreted)
    (covers : before.stack.Covers (frame.slot env.layout.bcx))
    (position : Word) :
    ∃ after, (frame.setBcx env position).Gives before () after := by
  unfold setBcx expectInterpreted expectKind
  simp [interpreted, unprofiled, putField, covers]

/-- A frame is interpreted when its blob is interpreter code. -/
theorem kind_eq_interpreted {frame : Frame} :
    frame.kind = .interpreted ↔
      ∃ blob, frame.blob = some blob ∧ blob.kind = .interpreter := by
  unfold kind
  rcases frame.blob with _ | blob
  · simp
  · dsimp only
    split
    · simp [*]
    · split <;> simp [*]
    · split <;> simp [*]
    · split <;> simp [*]
    · simp [*]
    · simp [*]
    · simp [*]

/-- A frame is interpreted where interpreter code contains its address. -/
theorem interpreted_of_contains
    {frame : Frame}
    {code : CodeCache}
    {pc : Address}
    (inCode : code.interpreterContains pc = true)
    (found : frame.blob = code.find? pc) :
    frame.kind = .interpreted := by
  unfold CodeCache.interpreterContains at inCode
  split at inCode
  · rename_i blob isBlob
    exact kind_eq_interpreted.mpr
      ⟨blob, found.trans isBlob, by simpa using inCode⟩
  · cases inCode

/-- Interpreter code has no deoptimization handler. -/
theorem resumesAtHandler_of_interpreted
    {frame : Frame}
    (kind : frame.kind = .interpreted) :
    frame.resumesAtHandler = false := by
  obtain ⟨blob, found, isInterpreter⟩ := kind_eq_interpreted.mp kind
  simp [resumesAtHandler, compiled?, found, Blob.compiled?, isInterpreter]

/-- Resolving a frame leaves the blob that it runs in. -/
theorem blob_of_gives_resolve
    {view : View}
    {frame resolved : Frame}
    (gives : (frame.resolve view : Probe ε Frame).Gives resolved) :
    resolved.blob = frame.blob := by
  unfold resolve at gives
  split at gives
  · split at gives
    · obtain rfl := Probe.gives_pure.mp gives
      rfl
    · simp only [Probe.gives_bind, Probe.gives_pure] at gives
      obtain ⟨_, -, rfl⟩ := gives
      rfl
  · obtain rfl := Probe.gives_pure.mp gives
    rfl

/-- An interpreted frame resolves to itself. -/
theorem gives_resolve_of_interpreted
    {view : View}
    {frame : Frame}
    (kind : frame.kind = .interpreted) :
    (frame.resolve view : Probe ε Frame).Gives
      { frame with deoptState := .notDeoptimized } := by
  simp [resolve, resumesAtHandler_of_interpreted kind]

/-- A plain frame in interpreter code is the view of its registers. -/
theorem interpreted_of_gives_plain
    {view : View}
    {sp fp pc : Address}
    {frame : Frame}
    (gives : (plain view sp fp pc : Probe ε Frame).Gives frame)
    (kind : frame.kind = .interpreted) :
    frame = { unresolved view sp sp fp pc with deoptState := .notDeoptimized } ∧
      view.code.interpreterContains pc = true := by
  obtain ⟨blob, found, isInterpreter⟩ := kind_eq_interpreted.mp kind
  have inCode : view.code.find? pc = some blob :=
    (blob_of_gives_resolve gives).symm.trans found
  have plainKind : (unresolved view sp sp fp pc).kind = .interpreted :=
    kind_eq_interpreted.mpr ⟨blob, inCode, isInterpreter⟩
  refine ⟨gives.unique (gives_resolve_of_interpreted plainKind), ?_⟩
  simp [CodeCache.interpreterContains, inCode, isInterpreter]

end Frame

/-- With an interpreter to return to, an activation is shown as an interpreted frame. -/
theorem Session.exists_gives_frameOf
    {context : ManagerContext τ}
    (interpreter : context.env.code.interpreterContains
      context.entryPoints.interpreterReturnPc = true)
    (session : Session τ)
    (activation : Activation) :
    ∃ frame, (frameOf context activation).Gives session frame session ∧
      frame.kind = .interpreted ∧ frame.fp = activation.fp :=
  ⟨_, gives_frameOf.mpr ⟨Frame.gives_resolve_of_interpreted
    (Frame.interpreted_of_contains interpreter rfl), rfl⟩,
    Frame.interpreted_of_contains interpreter rfl, rfl⟩

/-- The slots of a frame that publishing writes. -/
inductive PublishedSlot where
  | bcx
  | mdx
  | monitorEnd
  | lastSp
  | oopTemp
  deriving DecidableEq

namespace PublishedSlot

/-- Where the layout keeps the slot. -/
def offset
    (layout : FrameLayout) :
    PublishedSlot → Int
  | .bcx => layout.bcx
  | .mdx => layout.mdx
  | .monitorEnd => layout.monitorBlockTop
  | .lastSp => layout.lastSp
  | .oopTemp => layout.oopTemp

/-- The register that the slot stands for. -/
def word
    (activation : Activation) :
    PublishedSlot → Word
  | .bcx => activation.bcp
  | .mdx => activation.mdx
  | .monitorEnd => activation.monitorEnd
  | .lastSp => activation.stackTop
  | .oopTemp => activation.oopTemp

/-- The address of the slot in the frame of an activation. -/
def address
    (layout : FrameLayout)
    (activation : Activation)
    (slot : PublishedSlot) :
    Address :=
  activation.fp.offset (slot.offset layout)

end PublishedSlot

namespace Session

/-- What publishing the registers of an activation does to the stack. -/
structure Publishes
    (context : ManagerContext τ)
    (activation : Activation)
    (before after : Stack) :
    Prop where
  interpreter :
    context.env.code.interpreterContains
      context.entryPoints.interpreterReturnPc = true
  covers : ∀ slot : PublishedSlot,
    before.Covers (slot.address context.env.layout activation)
  keeps : Stack.Keeps
    (fun place => ∀ slot : PublishedSlot,
      (slot.address context.env.layout activation).toNat ≠ place)
    before after
  holds :
    (∀ slot other : PublishedSlot, slot ≠ other →
      slot.address context.env.layout activation ≠
        other.address context.env.layout activation) →
      ∀ slot : PublishedSlot,
        after.Holds (slot.address context.env.layout activation)
          (slot.word activation)

/-- The session with another stack. -/
def withStack
    (session : Session τ)
    (stack : Stack) :
    Session τ :=
  { session with machine := { session.machine with stack := stack } }

/--
A commit publishes the registers of the activation it names.  Later writes leave each
slot alone, as no two slots share an address.
-/
theorem gives_commit
    {context : ManagerContext τ}
    {index : Nat}
    {before after : Session τ}
    {value : Unit}
    (gives : (commit context index).Gives before value after) :
    ∃ activation stack,
      before.manager.activation? index = some activation ∧
        Publishes context activation before.machine.stack stack ∧
        after = before.withStack stack := by
  simp only [commit, gives_bind, gives_activation, gives_frameOf,
    gives_onMachine, Frame.setMonitorEnd, Frame.setLastSp, Frame.putField,
    Machine.gives_write, and_assoc, exists_and_left, exists_eq_left,
    exists_const] at gives
  obtain ⟨activation, found, frame, framed, committed, ⟨_, machine,
    positioned, rest⟩, rfl⟩ := gives
  obtain ⟨kind, stack, rfl, bcxCovers, keeps, bcxHolds⟩ :=
    Frame.gives_setBcx positioned
  obtain ⟨rfl, interpreter⟩ := Frame.interpreted_of_gives_plain framed kind
  simp only [Stack.covers_put, keeps.covers_iff] at rest
  obtain ⟨mdxCovers, endCovers, spCovers, tempCovers, rfl⟩ := rest
  refine ⟨activation, _, found, ⟨interpreter, ?_, ?_, ?_⟩, rfl⟩
  · rintro (_ | _ | _ | _ | _)
    · exact bcxCovers
    · exact mdxCovers
    · exact endCovers
    · exact spCovers
    · exact tempCovers
  · refine ((((keeps.mono ?_).trans (.put _ _ ?_)).trans (.put _ _ ?_)).trans
      (.put _ _ ?_)).trans (.put _ _ ?_)
    · exact fun place outside => ⟨outside .bcx, outside .mdx⟩
    · exact fun outside => outside .mdx rfl
    · exact fun outside => outside .monitorEnd rfl
    · exact fun outside => outside .lastSp rfl
    · exact fun outside => outside .oopTemp rfl
  · intro apart slot
    cases slot with
    | bcx =>
        refine (Stack.holds_put_of_ne (apart .bcx .oopTemp (by decide))).mpr ?_
        refine (Stack.holds_put_of_ne (apart .bcx .lastSp (by decide))).mpr ?_
        refine (Stack.holds_put_of_ne (apart .bcx .monitorEnd (by decide))).mpr ?_
        refine (Stack.holds_put_of_ne (apart .bcx .mdx (by decide))).mpr ?_
        exact bcxHolds (apart .bcx .mdx (by decide))
    | mdx =>
        refine (Stack.holds_put_of_ne (apart .mdx .oopTemp (by decide))).mpr ?_
        refine (Stack.holds_put_of_ne (apart .mdx .lastSp (by decide))).mpr ?_
        refine (Stack.holds_put_of_ne (apart .mdx .monitorEnd (by decide))).mpr ?_
        exact Stack.holds_put_same (keeps.covers_iff.mpr mdxCovers)
    | monitorEnd =>
        refine (Stack.holds_put_of_ne
          (apart .monitorEnd .oopTemp (by decide))).mpr ?_
        refine (Stack.holds_put_of_ne (apart .monitorEnd .lastSp (by decide))).mpr ?_
        exact Stack.holds_put_same
          (Stack.covers_put.mpr (keeps.covers_iff.mpr endCovers))
    | lastSp =>
        refine (Stack.holds_put_of_ne (apart .lastSp .oopTemp (by decide))).mpr ?_
        exact Stack.holds_put_same (Stack.covers_put.mpr
          (Stack.covers_put.mpr (keeps.covers_iff.mpr spCovers)))
    | oopTemp =>
        exact Stack.holds_put_same (Stack.covers_put.mpr (Stack.covers_put.mpr
          (Stack.covers_put.mpr (keeps.covers_iff.mpr tempCovers))))

end Session

end ManagedStack
