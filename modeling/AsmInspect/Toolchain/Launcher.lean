import AsmInspect.Filters
import AsmInspect.Text.Basic

/-!
# The launcher of the external parser

A disassembler and the external parser are chained by a small script for the shell, written into
the job directory. The paths of the two tools stand in it as quoted words, so that no character of
a path is read as anything but itself.

## Main definitions

* `Launcher.parserFlags`: the flags that tell the parser what the filters want
* `Launcher.quote`: a text as one quoted word of the shell
* `Launcher.script`: the text of the script
-/

namespace AsmInspect.Launcher

/-- The name of the script inside a job directory. -/
def fileName : String := "dump-and-parse.sh"

/-- The flags of the external parser for some filters, in a fixed order. -/
def parserFlags (filters : Filters) (fromStdin : Bool) : List String :=
  [(fromStdin, "-stdin"), (filters.binary, "-binary"), (filters.labels, "-unused_labels"),
    (filters.directives, "-directives"), (filters.commentOnly, "-comment_only"),
    (filters.trim, "-whitespace"), (filters.libraryCode, "-library_functions")].filterMap
    fun (wanted, flag) => if wanted then some flag else none

/-- The text as one word of the shell: in single quotes, and a single quote inside it as the end of
the quotes, an escaped quote and the start of new quotes. -/
def quote (text : Text) : Text :=
  '\'' :: Text.replaceAll ['\''] ['\'', '\\', '\'', '\''] text ++ ['\'']

/-- The script that pipes the output of the disassembler, run with all arguments of the script,
into the parser. -/
def script (objdumper parser : String) (filters : Filters) : String :=
  let objdumper := String.ofList (quote objdumper.toList)
  let parser := String.ofList (quote parser.toList)
  let flags := " ".intercalate (parserFlags filters true)
  s!"#!/bin/sh\nOBJDUMP={objdumper}\nASMPARSER={parser}\n" ++
    s!"\"$OBJDUMP\" \"$@\" | \"$ASMPARSER\" {flags}\n"

end AsmInspect.Launcher
