import ManagedStack.Code.DeoptRecords
import ManagedStack.Method
import ManagedStack.Report.Basic

namespace ManagedStack

/-!
# Reports about code and methods

What is known of a unit of generated code with respect to one address, and of a
method as a whole and at one bytecode index.
-/

/-- A reference map with everything it records. -/
def OopMap.report (map : OopMap) : Report :=
  .fields [
    ("off", .index map.pcOffset),
    ("regs", .ofList (fun register => .text register.name) map.oopRegisters),
    ("slots", .ofList .count map.oopSlots),
    ("slot_count", .count map.oopSlots.length),
    ("saved", .ofList
      (fun (register, slot) => .list [.text register.name, .index slot])
      map.calleeSaved),
    ("count", .count map.oopCount)]

/-- What a compiled unit says about an address. -/
def CompiledUnit.report
    (compiled : CompiledUnit)
    (records : DeoptRecords)
    (start pc : Address) :
    Report :=
  .fields [
    ("method", .word compiled.method),
    ("native", .flag compiled.isNative),
    ("java", .flag !compiled.isNative),
    ("deopt", .word compiled.deoptHandler),
    ("deopt_mh", .word compiled.methodHandleDeoptHandler),
    ("deopt_entry", .flag (pc == compiled.deoptHandler)),
    ("deopt_mh_entry", .flag (pc == compiled.methodHandleDeoptHandler)),
    ("deopt_pc", .flag (compiled.isDeoptPc pc)),
    ("mh_return", .flag (compiled.isMethodHandleReturn pc)),
    ("poll", .flag (compiled.isPollReturn pc)),
    ("can_deopt", .flag compiled.deoptimizable),
    ("marked", .flag (records.isMarked start)),
    ("site", .ofOption
      (fun site => .list [.text site.signature.text, .flag site.hasReceiver])
      (compiled.callSiteAt? pc)),
    ("original_pcs", .count (records.count start))]

/-- What a blob says about an address. -/
def Blob.report
    (blob : Blob)
    (records : DeoptRecords)
    (pc : Address) :
    Report :=
  .fields [
    ("name", .text blob.name),
    ("kind", .text blob.kind.name),
    ("start", .word blob.start),
    ("end", .word blob.stop),
    ("frame_size", .word blob.frameSize),
    ("contains", .flag (blob.contains pc)),
    ("code", .flag (blob.codeContains pc)),
    ("complete", .ofChecked .flag (blob.isFrameCompleteAt pc)),
    ("gc_args", .flag blob.callerMustGcArguments),
    ("maps", .ofOption
      (fun maps => .list [.count maps.size, .flag (maps.size == 0)])
      blob.oopMaps),
    ("map", .ofOption OopMap.report (blob.oopMapAt? pc)),
    ("flags", .list [.flag blob.isCompiled, .flag blob.isRuntimeStub,
      .flag blob.isAdapter, .flag blob.isSafepointStub]),
    ("compiled", .ofOption
      (fun compiled => compiled.report records blob.start pc)
      blob.compiled?)]

/-- What the code space says about an address. -/
def CodeCache.report
    (code : CodeCache)
    (records : DeoptRecords)
    (pc : Address) :
    Report :=
  .fields [
    ("blob", .ofOption (fun blob => blob.report records pc) (code.find? pc)),
    ("contains", .flag (code.contains pc)),
    ("interpreter", .flag (code.interpreterContains pc)),
    ("to_call_stub", .flag (code.returnsToCallStub pc))]

/-- The names of all blobs, with their number. -/
def CodeCache.summary (code : CodeCache) : Report :=
  .list [.count code.size, .flag (code.size == 0),
    .ofList (fun blob => .text blob.name) code.blobs]

namespace Method

/-- A method in a table of a given size. -/
def report
    (method : Method)
    (tableSize : Nat) :
    Report :=
  .fields [
    ("id", .word method.id),
    ("name", .text method.name),
    ("code", .word method.codeBase),
    ("code_size", .count method.codeSize.toNat),
    ("max_locals", .count method.maxLocals),
    ("max_stack", .count method.maxStack.toNat),
    ("sig", .text method.signature.text),
    ("static", .flag method.isStatic),
    ("native", .flag method.isNative),
    ("constants", .word method.constants),
    ("result", .text method.resultType.name),
    ("params", .count method.parameterSlots),
    ("data", .ofOption
      (fun area => .list [.word area.base, .word area.size])
      method.profiling),
    ("count", .count tableSize),
    ("empty", .flag (tableSize == 0))]

/-- What a method says about a bytecode index. -/
def positionReport
    (method : Method)
    (bci : UInt32) :
    Report :=
  .fields [
    ("bcp", .ofChecked .word (method.bcpOf bci)),
    ("invoke", .ofOption
      (fun site => .list [.text site.signature.text, .flag site.hasReceiver,
        .count site.length.toNat, .count site.argumentSlots])
      (method.invokeAt? bci)),
    ("mask", .ofOption
      (fun mask => .fields [
        ("locals", .count mask.locals.length),
        ("stack", .count mask.expressions.length),
        ("oop_locals", .ofList .count mask.oopLocals),
        ("oop_stack", .ofList .count mask.oopExpressions)])
      (method.maskAt? bci))]

/-- What a method says about a position word. -/
def bcxReport
    (method : Method)
    (bcx : Word) :
    Report :=
  .fields [
    ("is_bci", .flag (isBytecodeIndex bcx)),
    ("bci_from", .ofOption .index (method.bciOf? bcx)),
    ("valid", .ofOption .index (method.bciOfBcx? bcx))]

/-- A word as an index into the profiling area and as a pointer into it. -/
def profilingReport
    (method : Method)
    (value : Word) :
    Report :=
  .ofOption
    (fun area => .list [.ofChecked .word (area.pointerOf value),
      .ofOption .word (area.indexOf? value)])
    method.profiling

end Method

end ManagedStack
