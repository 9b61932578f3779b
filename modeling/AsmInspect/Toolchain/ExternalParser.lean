import AsmInspect.Flow.Basic
import AsmInspect.Json.Tree
import AsmInspect.Mask
import AsmInspect.Path
import AsmInspect.Result
import AsmInspect.Toolchain.Basic
import AsmInspect.Toolchain.Launcher

/-!
# The external parser

An external parser prints one JSON object, and nothing else, for a listing that it reads from a
disassembler or from a file.

## Main definitions

* `ParserTools.answer`: the answer that a run of the parser stands for
* `Toolchain.parseDump`: a disassembler piped into the parser
* `Toolchain.parseFile`: the parser on a file
-/

namespace AsmInspect

/-- The answer that a run of the parser stands for: its output is exactly one JSON object. -/
def ParserTools.answer (tools : ParserTools) (run : ToolResult) : Except Failure ParserResult :=
  match Json.ofText? run.stdout with
  | some (.object fields) => .ok (ParserResult.merge run (Dict.ofList fields))
  | some value => .error (.protocol tools.parser s!"expected a JSON object, got {value.kindName}")
  | none => .error (.protocol tools.parser "invalid JSON")

namespace Toolchain

/-- The options of a run of the parser. -/
def parserOptions (toolchain : Toolchain) : ToolOptions :=
  toolchain.options .externalParser toolchain.limits.maxAsmSize

/-- The answer of the parser to what the disassembler prints when it is given some arguments. The
two are chained by a script in the job directory. -/
def parseDump (toolchain : Toolchain) (tools : ParserTools) (jobDir : String) (args : List String)
    (filters : Filters) : Work ParserResult := do
  Work.writeText .externalParser (Path.join jobDir Launcher.fileName)
    (Launcher.script tools.objdumper tools.parser filters) true
  let run ← Work.runTool (Path.join "." Launcher.fileName) (args.map toolchain.sandbox.maskPath)
    { toolchain.parserOptions with cwd := some jobDir }
  Work.ofExcept (tools.answer run)

/-- The answer of the parser to a file. -/
def parseFile (toolchain : Toolchain) (tools : ParserTools) (path : String) (filters : Filters) :
    Work ParserResult := do
  let run ← Work.runTool tools.parser (Launcher.parserFlags filters false ++ [path])
    toolchain.parserOptions
  Work.ofExcept (tools.answer run)

end Toolchain

end AsmInspect
