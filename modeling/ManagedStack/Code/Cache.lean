import ManagedStack.Code.Blob

namespace ManagedStack

/-!
# The code space

The code cache keeps blobs in ascending order of their start.  Insertion refuses
a blob that is empty, names an address outside itself, has an ambiguous return
address, or meets a blob already there; lookup accepts any address whatever.
Because ranges are disjoint, the last blob that starts at or below an address is
the only one that can contain it.
-/

/-- Why a blob is refused. -/
inductive CodeCacheError where
  | overlap (name : String) (start stop : Address) (other : String)
  | emptyRange (name : String)
  | ambiguousReturnPc (name : String) (pc : Address)
  | outsideBlob (name : String) (pc : Address)
  deriving Repr, DecidableEq

/-- The name of a refusal. -/
def CodeCacheError.name : CodeCacheError → String
  | .overlap _ _ _ _ => "Overlap"
  | .emptyRange _ => "EmptyRange"
  | .ambiguousReturnPc _ _ => "AmbiguousReturnPc"
  | .outsideBlob _ _ => "OutsideBlob"

/-- The message of a refusal. -/
def CodeCacheError.message : CodeCacheError → String
  | .overlap name start stop other =>
      "Code blob '" ++ name ++ "' [" ++ start.hex ++ ", " ++ stop.hex ++
        ") overlaps '" ++ other ++ "'"
  | .emptyRange name => "Code blob '" ++ name ++ "' has an empty range"
  | .ambiguousReturnPc name pc =>
      "Return pc " ++ pc.hex ++ " in '" ++ name ++
        "' matches more than one of deopt entry, method-handle deopt entry, " ++
        "method-handle return"
  | .outsideBlob name pc =>
      "Address " ++ pc.hex ++ " named by '" ++ name ++
        "' lies outside the blob"

/-- Whether a blob is well formed on its own. -/
def Blob.check (blob : Blob) : Except CodeCacheError Unit := do
  if blob.stop ≤ blob.start then
    throw (.emptyRange blob.name)
  if let some pc := blob.namedPcs.find? (!blob.contains ·) then
    throw (.outsideBlob blob.name pc)
  if let some pc := blob.compiled?.bind CompiledUnit.ambiguousPc? then
    throw (.ambiguousReturnPc blob.name pc)

/-- The registered blobs, ascending by start. -/
structure CodeCache where
  blobs : List Blob := []
  deriving Repr

namespace CodeCache

/-- Blobs that start below an address, ascending. -/
def startingBelow
    (cache : CodeCache)
    (address : Address) :
    List Blob :=
  cache.blobs.takeWhile (·.start < address)

/-- Blobs that start at or below an address, ascending. -/
def startingAtOrBelow
    (cache : CodeCache)
    (address : Address) :
    List Blob :=
  cache.blobs.takeWhile (·.start ≤ address)

/-- The registered blob that a new one would meet. -/
def overlapping?
    (cache : CodeCache)
    (blob : Blob) :
    Option Blob :=
  (cache.startingBelow blob.stop).getLast?.filter (blob.start < ·.stop)

/-- Register a blob, or say why it is refused. -/
def insert
    (cache : CodeCache)
    (blob : Blob) :
    Except CodeCacheError CodeCache := do
  blob.check
  if let some other := cache.overlapping? blob then
    throw (.overlap blob.name blob.start blob.stop other.name)
  return ⟨cache.startingBelow blob.start ++
    blob :: cache.blobs.dropWhile (·.start < blob.start)⟩

/-- How many blobs are registered. -/
def size (cache : CodeCache) : Nat :=
  cache.blobs.length

/-- The blob that contains an address. -/
def find?
    (cache : CodeCache)
    (pc : Address) :
    Option Blob :=
  (cache.startingAtOrBelow pc).getLast?.filter (·.contains pc)

/-- Whether any blob contains an address. -/
def contains
    (cache : CodeCache)
    (pc : Address) :
    Bool :=
  (cache.find? pc).isSome

/-- Whether an address lies in interpreter code. -/
def interpreterContains
    (cache : CodeCache)
    (pc : Address) :
    Bool :=
  match cache.find? pc with
  | some blob => blob.kind == .interpreter
  | none => false

/-- Whether an address is where callees return into the call stub. -/
def returnsToCallStub
    (cache : CodeCache)
    (pc : Address) :
    Bool :=
  match cache.find? pc with
  | some blob => blob.kind == .callStub pc
  | none => false

end CodeCache

end ManagedStack
