import ManagedStack.Signature

namespace ManagedStack

/-!
# Methods

This module holds what frames need to know of a method: how code positions and
bytecode indices convert, its signature, which slots of an interpreted
activation hold references at each bytecode index, which bytecodes are invokes,
and its profiling area.  A position word, a *bcx*, is an index when it is at most
65535 and a code address above that.
-/

/-- The largest position word that is read as a bytecode index. -/
def maxCodeSize : Word := 65535

/-- Whether a position word holds a bytecode index and not an address. -/
def isBytecodeIndex (bcx : Word) : Bool :=
  bcx ≤ maxCodeSize

/-- What one local or expression stack slot of an interpreted activation holds. -/
inductive SlotKind where
  | value
  | oop
  | dead
  deriving Repr, DecidableEq

/-- The slots of an interpreted activation at one bytecode index. -/
structure LivenessMask where
  locals : List SlotKind
  /-- Expression stack slots, the deepest entry first. -/
  expressions : List SlotKind
  deriving Repr, DecidableEq

namespace LivenessMask

/-- The indices at which a reference is held, ascending. -/
def oopIndices (kinds : List SlotKind) : List Nat :=
  (List.range kinds.length).filter fun index => kinds[index]? == some .oop

/-- Indices of the locals that hold references. -/
def oopLocals (mask : LivenessMask) : List Nat :=
  oopIndices mask.locals

/-- Indices of the expression stack entries that hold references. -/
def oopExpressions (mask : LivenessMask) : List Nat :=
  oopIndices mask.expressions

/-- An index is listed exactly when its slot holds a reference. -/
theorem mem_oopIndices
    {kinds : List SlotKind}
    {index : Nat} :
    index ∈ oopIndices kinds ↔ kinds[index]? = some .oop := by
  simp only [oopIndices, List.mem_filter, List.mem_range, beq_iff_eq,
    and_iff_right_iff_imp]
  intro held
  exact (List.getElem?_eq_some_iff.mp held).1

end LivenessMask

/-- An invoke bytecode. -/
structure InvokeSite where
  signature : Signature
  hasReceiver : Bool
  /-- Bytes taken by the instruction. -/
  length : UInt8
  deriving Repr, DecidableEq

/-- Argument slots of an invoke, the receiver included. -/
def InvokeSite.argumentSlots (site : InvokeSite) : Nat :=
  site.signature.slotsWith site.hasReceiver

/-- The profiling area of a method. -/
structure ProfilingArea where
  base : Address
  size : Word
  deriving Repr, DecidableEq

namespace ProfilingArea

/-- The data pointer for an index into the area. -/
def pointerOf
    (area : ProfilingArea)
    (index : Word) :
    Except Abort Address :=
  area.base.plus index

/-- The index of a data pointer; the end of the area counts. -/
def indexOf?
    (area : ProfilingArea)
    (pointer : Address) :
    Option Word :=
  (pointer.sub? area.base).filter (· ≤ area.size)

end ProfilingArea

/-- What the frame layer knows of a method. -/
structure Method where
  /-- The word that stands for the method in its frames. -/
  id : Word
  name : String
  signature : Signature
  codeBase : Address := 0
  codeSize : Word := 0
  declaredLocals : Word := 0
  maxStack : Word := 0
  isStatic : Bool := false
  isNative : Bool := false
  constants : Word := 0
  profiling : Option ProfilingArea := none
  /-- Masks by bytecode index; the first entry for an index counts. -/
  masks : List (UInt32 × LivenessMask) := []
  /-- Invokes by bytecode index; the first entry for an index counts. -/
  invokes : List (UInt32 × InvokeSite) := []
  deriving Repr, DecidableEq

namespace Method

/-- The declared type of the method's result. -/
def resultType (method : Method) : BasicType :=
  method.signature.result

/-- Parameter slots, the receiver included. -/
def parameterSlots (method : Method) : Nat :=
  method.signature.slotsWith (!method.isStatic)

/-- Local slots; there is always room for the parameters. -/
def maxLocals (method : Method) : Nat :=
  max method.declaredLocals.toNat method.parameterSlots

/-- Record the mask at a bytecode index, in place of any earlier one. -/
def withMask
    (method : Method)
    (bci : UInt32)
    (mask : LivenessMask) :
    Method :=
  { method with masks := (bci, mask) :: method.masks }

/-- Record the invoke at a bytecode index, in place of any earlier one. -/
def withInvoke
    (method : Method)
    (bci : UInt32)
    (site : InvokeSite) :
    Method :=
  { method with invokes := (bci, site) :: method.invokes }

/-- The code address of a bytecode index. -/
def bcpOf
    (method : Method)
    (bci : UInt32) :
    Except Abort Address :=
  method.codeBase.plus bci.toUInt64

/-- The bytecode index of a code address inside the method. -/
def bciOf?
    (method : Method)
    (bcp : Address) :
    Option UInt32 :=
  match bcp.sub? method.codeBase with
  | some distance =>
      if distance < max method.codeSize 1 then some distance.toUInt32 else none
  | none => none

/-- Whether a bytecode index is a position of the method. -/
def isPosition
    (method : Method)
    (bci : UInt32) :
    Bool :=
  if method.isNative then bci == 0 else bci.toUInt64 < method.codeSize

/-- The bytecode index that a position word names, if it is a position here. -/
def bciOfBcx?
    (method : Method)
    (bcx : Word) :
    Option UInt32 :=
  let candidate :=
    if isBytecodeIndex bcx then some bcx.toUInt32 else method.bciOf? bcx
  candidate.filter method.isPosition

/-- The invoke at a bytecode index, if there is one. -/
def invokeAt?
    (method : Method)
    (bci : UInt32) :
    Option InvokeSite :=
  method.invokes.lookup bci

/-- The slots that the parameters of one type take in a native method. -/
def parameterKinds (type : BasicType) : List SlotKind :=
  let first := if type.isReference then SlotKind.oop else SlotKind.value
  if type.slots = 2 then [first, .value] else [first]

/-- The mask of a native method, which holds nothing but its parameters. -/
def nativeMask (method : Method) : LivenessMask where
  locals :=
    (if method.isStatic then [] else [SlotKind.oop]) ++
      method.signature.parameters.flatMap parameterKinds
  expressions := []

/-- The mask for a bytecode index. -/
def maskAt?
    (method : Method)
    (bci : UInt32) :
    Option LivenessMask :=
  if method.isNative then some method.nativeMask else method.masks.lookup bci

end Method

/-- The known methods; method words are unique. -/
structure MethodTable where
  methods : List Method := []
  deriving Repr

namespace MethodTable

/-- Register a method, in place of any with the same method word. -/
def insert
    (table : MethodTable)
    (method : Method) :
    Except Abort MethodTable := do
  require .methodIdAligned method.id.isAligned
  return ⟨method :: table.methods.filter (·.id != method.id)⟩

/-- How many methods are known. -/
def size (table : MethodTable) : Nat :=
  table.methods.length

/-- The method that a method word stands for. -/
def find?
    (table : MethodTable)
    (word : Word) :
    Option Method :=
  table.methods.find? (·.id == word)

end MethodTable

end ManagedStack
