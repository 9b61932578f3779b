import AsmInspect.Proofs.Flow.Sequential
import AsmInspect.Proofs.Json.Mark
import AsmInspect.Proofs.Tool.Capture
import AsmInspect.Proofs.Toolchain.FanOut
import AsmInspect.Toolchain.ExternalParser

/-!
# Parser output that is cut off

The external parser prints one JSON object, of which no more is kept than the limits allow. An
object that is longer may well begin with a shorter one, so that its first bytes alone would be a
result with its end missing. They are never taken for one: the mark behind them is no JSON, and the
run is refused as one that broke the protocol.

## Main definitions

* `Toolchain.dumpCall`, `Toolchain.fileCall`: how the parser is run

## Main results

* `Toolchain.evaluate_parseDump`, `Toolchain.evaluate_parseFile`: the answer is that of the run
* `ParserTools.answer_of_cutOff`: a run that is cut off is refused
* `Toolchain.cut_off_output_refused`: so are both ways to use the parser
-/

namespace AsmInspect

variable {tools : ParserTools} {run : ToolResult} {limit : Nat} {chunks : List (List UInt8)}

/-- **A run of the parser that is cut off is refused**, whatever the bytes that are kept of it. -/
theorem ParserTools.answer_of_cutOff (tools : ParserTools) (h : run.CutOff limit chunks) :
    tools.answer run = .error (.protocol tools.parser "invalid JSON") := by
  unfold answer
  rw [Json.ofText?_of_mark h.toList_stdout]

namespace Toolchain

/-- How the disassembler is run with its output piped into the parser. -/
def dumpCall (toolchain : Toolchain) (jobDir : String) (args : List String) : ToolCall :=
  { program := Path.join "." Launcher.fileName
    args := args.map toolchain.sandbox.maskPath
    options := { toolchain.parserOptions with cwd := some jobDir } }

/-- How the parser is run on a file. -/
def fileCall (toolchain : Toolchain) (tools : ParserTools) (path : String) (filters : Filters) :
    ToolCall :=
  { program := tools.parser
    args := Launcher.parserFlags filters false ++ [path]
    options := toolchain.parserOptions }

variable {toolchain : Toolchain} {jobDir path : String} {args : List String} {filters : Filters}
  {answers : (query : Query) → query.Answer}

theorem evaluate_ofExcept {α : Type} (found : Except Failure α) :
    (Work.ofExcept found).run.evaluate answers = found := by
  cases found with
  | ok => rfl
  | error => rfl

/-- A file that can be written is no reason to stop. -/
theorem evaluate_writeText {stage : Stage} {text : String} {executable : Bool}
    (h : answers (.writeText path text executable) = .ok ()) :
    (Work.writeText stage path text executable).run.evaluate answers = .ok () := by
  have hquery : (Work.query (.writeText path text executable)).run.evaluate answers =
      .ok (answers (.writeText path text executable)) := rfl
  unfold Work.writeText
  rw [Flow.evaluate_work_bind_ok hquery, h]
  rfl

/-- **The answer to a dump** is that of the run of the script, once the script is written. -/
theorem evaluate_parseDump
    (hwritten : answers (.writeText (Path.join jobDir Launcher.fileName)
      (Launcher.script tools.objdumper tools.parser filters) true) = .ok ())
    (hanswer : answers (.runTool (toolchain.dumpCall jobDir args)) = .ok run) :
    (toolchain.parseDump tools jobDir args filters).run.evaluate answers = tools.answer run := by
  have hrun : (Work.runTool (Path.join "." Launcher.fileName) (args.map toolchain.sandbox.maskPath)
      { toolchain.parserOptions with cwd := some jobDir }).run.evaluate answers = .ok run := hanswer
  unfold parseDump
  rw [Flow.evaluate_work_bind_ok (evaluate_writeText hwritten), Flow.evaluate_work_bind_ok hrun]
  exact evaluate_ofExcept (tools.answer run)

/-- **The answer to a file** is that of the run of the parser. -/
theorem evaluate_parseFile
    (hanswer : answers (.runTool (toolchain.fileCall tools path filters)) = .ok run) :
    (toolchain.parseFile tools path filters).run.evaluate answers = tools.answer run := by
  have hrun : (Work.runTool tools.parser (Launcher.parserFlags filters false ++ [path])
      toolchain.parserOptions).run.evaluate answers = .ok run := hanswer
  unfold parseFile
  rw [Flow.evaluate_work_bind_ok hrun]
  exact evaluate_ofExcept (tools.answer run)

/-- **Parser output that is cut off is never taken for a result**: however it came in chunks and
whatever is kept of it, the parser has broken its protocol. -/
theorem cut_off_output_refused
    (hrun : run.CutOff toolchain.limits.maxAsmSize.toNat chunks) :
    (answers (.writeText (Path.join jobDir Launcher.fileName)
        (Launcher.script tools.objdumper tools.parser filters) true) = .ok () →
      answers (.runTool (toolchain.dumpCall jobDir args)) = .ok run →
      (toolchain.parseDump tools jobDir args filters).run.evaluate answers =
        .error (.protocol tools.parser "invalid JSON")) ∧
    (answers (.runTool (toolchain.fileCall tools path filters)) = .ok run →
      (toolchain.parseFile tools path filters).run.evaluate answers =
        .error (.protocol tools.parser "invalid JSON")) := by
  have hrefused := tools.answer_of_cutOff hrun
  constructor
  · intro hwritten hanswer
    rw [evaluate_parseDump hwritten hanswer, hrefused]
  · intro hanswer
    rw [evaluate_parseFile hanswer, hrefused]

/-- An object and something behind it, in two chunks. -/
def objectAndMore : List (List UInt8) := [[0x7b], [0x7d, 0x0a, 0x20]]

/-- A run that prints these chunks, of which only the object is kept. -/
def printedObject : ToolResult :=
  { stdout := (Capture.ofChunks 2 objectAndMore).text, truncated := true }

/-- The answers of a machine on which each tool prints these chunks. -/
def printingObject : (query : Query) → query.Answer
  | .runTool _ => .ok printedObject
  | query => quiet [] query

/-- A toolchain that keeps no more than two bytes of what the parser prints. -/
def narrowNvcc : Toolchain := { plainNvcc with limits := { maxAsmSize := 2 } }

/-- The disassembler and the parser that it uses. -/
def plainParser : ParserTools := { objdumper := "objdump", parser := "asm-parser" }

/-- An object of which all is kept is refused if something has been cut off behind it. -/
theorem cut_off_output_refused_after_object :
    Json.ofText? (String.ofList (Capture.beginning 2 objectAndMore)) = some (.object []) ∧
    (narrowNvcc.parseDump plainParser "job" [] {}).run.evaluate printingObject =
      .error (.protocol "asm-parser" "invalid JSON") ∧
    (narrowNvcc.parseFile plainParser "a.s" {}).run.evaluate printingObject =
      .error (.protocol "asm-parser" "invalid JSON") := by
  have hrun : printedObject.CutOff narrowNvcc.limits.maxAsmSize.toNat objectAndMore :=
    ⟨rfl, by decide⟩
  obtain ⟨hdump, hfile⟩ := @cut_off_output_refused plainParser printedObject objectAndMore
    narrowNvcc "job" "a.s" [] {} printingObject hrun
  exact ⟨rfl, hdump rfl rfl, hfile rfl⟩

end Toolchain

end AsmInspect
