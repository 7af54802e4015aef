import ManagedStack.Engine.Script
import ManagedStack.Report.Basic

namespace ManagedStack

/-!
# Reports about the engine protocol

Payloads, activations, what a step did, and what a scripted run recorded.
-/

/-- A call request. -/
def CallRequest.report (request : CallRequest) : Report :=
  .fields [("call", .fields [
    ("callee", .word request.callee),
    ("entry", .word request.entryPoint),
    ("advance", .count request.advance.toNat)])]

/-- A kind of result. -/
def ReturnKind.report (kind : ReturnKind) : Report :=
  .fields [("return", .text kind.name)]

/-- A request for on-stack replacement. -/
def OsrRequest.report (request : OsrRequest) : Report :=
  .fields [("osr", .fields [
    ("buffer", .word request.buffer),
    ("entry", .word request.entry)])]

/-- The words that an on-stack replacement gave. -/
def OsrResult.words (result : OsrResult) : Report :=
  .fields [
    ("nm", .word result.code),
    ("return_addr", .word result.returnAddress)]

/-- What an on-stack replacement gave. -/
def OsrResult.report (result : OsrResult) : Report :=
  .fields [("osr_result", result.words)]

/-- A payload, under the name of its form. -/
def Payload.report : Payload → Report
  | .empty => .fields [("empty", .flag true)]
  | .call request => request.report
  | .returning kind => kind.report
  | .osr request => request.report
  | .osrResult result => result.report

/-- An activation with what can be asked about it. -/
def Survey.report (survey : Survey) : Report :=
  let activation := survey.activation
  let scratch := activation.scratch
  .fields [
    ("thread", .text (threadText activation.thread)),
    ("method", .word activation.method),
    ("bcp", .word activation.bcp),
    ("locals", .word activation.locals),
    ("constants", .word activation.constants),
    ("mdx", .word activation.mdx),
    ("oop_temp", .word activation.oopTemp),
    ("stack", .word activation.stackTop),
    ("stack_base", .word activation.stackBase),
    ("stack_limit", .word activation.stackLimit),
    ("monitor_base", .word activation.monitorBase),
    ("monitor_end", .word activation.monitorEnd),
    ("monitors", .ofList (.ofOption .word) survey.monitors),
    ("fp", .word activation.fp),
    ("msg", .text activation.message.name),
    ("result", activation.payload.report),
    ("prev", .ofOption .count activation.caller),
    ("exception", .ofOption .word activation.pendingException),
    ("scratch", .ofList (.ofOption .word)
      ((List.range (scratch.size + 1)).map scratch.restore?)),
    ("depth", .count survey.depth.toNat),
    ("top", .ofList (.ofResult .word) survey.entries)]

/-- What a served request did. -/
def StepOutcome.report (outcome : StepOutcome) : Report :=
  let effect : List (String × Report) :=
    match outcome with
    | .called depth => [("called", .count depth)]
    | .resumed depth message =>
        [("resumed", .count depth), ("message", .text message.name)]
    | .returned kind value =>
        [("returned", .text kind.name), ("value", .ofList .word value)]
    | .threw exception => [("threw", .word exception)]
    | .onStackReplaced result => [("osr_result", result.words)]
  .fields (effect ++ [("terminal", .flag outcome.isTerminal)])

/-- What a scripted run recorded. -/
def ScriptRecord.report : ScriptRecord → Report
  | .word value => .word value
  | .flag value => .flag value
  | .messages accepted =>
      .ofList (fun message => .text message.name) accepted
  | .survey taken => taken.report
  | .error cause => .ofError cause
  | .migration method message request =>
      .fields [
        ("osr_method", .text method),
        ("msg", .text message.name),
        ("buffer", .word request.buffer),
        ("entry", .word request.entry)]

end ManagedStack
