import AsmInspect.Compiler
import AsmInspect.Filters
import AsmInspect.Path
import AsmInspect.Version

/-!
# Command lines

What the compilers and disassemblers are called with. Compilers of one kind share their
conventions.

## Main definitions

* `Compiler.sourceFileName`, `Compiler.buildArguments`: how a compiler is called
* `Compiler.wantsReport`, `Compiler.reportArguments`: how an optimization record is asked for
* `Disassembler.objdumpArguments`, `Disassembler.deviceArguments`: how a disassembler is called
* `Disassembler.noOutput`: what is shown when a disassembler fails
-/

namespace AsmInspect

namespace Compiler

/-- The name under which the source is saved. -/
def sourceFileName (compiler : Compiler) : String :=
  match compiler.kind with
  | .nvcc => "example.cu"
  | .generic => "example.cpp"

/-- The flags that the filters ask for; the user's options and the source follow them. -/
def buildArguments (compiler : Compiler) (filters : Filters) (outputPath : String) :
    List String :=
  match compiler.kind with
  | .generic =>
    ["-g", "-o", outputPath] ++
      (if filters.execute then [] else [if filters.binary then "-c" else "-S"])
  | .nvcc =>
    ["-o", outputPath, "-g", "-lineinfo"] ++
      (if filters.execute then []
      else ["-c", "-keep", "-keep-dir", (Path.parent? outputPath).getD "."] ++
        (if filters.binary then [] else ["-Xcompiler=-S"]))

/-- The options by which users ask for an optimization record. -/
def reportOptions (compiler : Compiler) : List String :=
  match compiler.kind with
  | .generic => ["-fsave-optimization-record"]
  | .nvcc => ["-fsave-optimization-record", "--optimization-info", "-opt-info"]

/-- Whether some options ask for an optimization record. -/
def wantsReport (compiler : Compiler) (options : List String) : Bool :=
  options.any (compiler.reportOptions.contains ·)

/-- The configured flags with the path of the record filled in. -/
def filledOptArgs (compiler : Compiler) (recordPath : String) : List String :=
  compiler.optArgs.map fun arg =>
    String.ofList (Text.replaceAll "\x7brecord\x7d".toList recordPath.toList arg.toList)

/-- The flags that make the compiler save its record. -/
def reportArguments (compiler : Compiler) (recordPath : String) : List String :=
  match compiler.kind with
  | .generic => compiler.filledOptArgs recordPath
  | .nvcc => (compiler.filledOptArgs recordPath).map ("-Xcompiler=" ++ ·)

end Compiler

namespace Disassembler

/-- The flags that disassemble an object with line information. -/
def objdumpArguments (object : String) (filters : Filters) (dialect : Dialect) : List String :=
  ["-d", object, "-l", "--insn-width=16"] ++ (if filters.demangle then ["-C"] else []) ++
    (match dialect with
      | .att => []
      | .intel => ["-M", "intel"])

/-- The first release of the device disassembler that can print encodings. -/
def encodingsSince : Version := { major := 11 }

/-- The flags that disassemble a device artifact. -/
def deviceArguments (artifact version : String) : List String :=
  [artifact, "-c", "-g"] ++
    (if encodingsSince.le (Version.ofText version) then ["-hex"] else [])

/-- What is shown in place of the output of a disassembler that failed. -/
def noOutput (tool : String) (code : Int32) : String :=
  s!"<No output: {(Path.fileName? tool).getD tool} returned {code}>"

end Disassembler

end AsmInspect
