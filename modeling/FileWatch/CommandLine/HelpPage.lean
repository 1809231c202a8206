import FileWatch.CommandLine.Arguments

/-! # HelpPage — what help says of a level

A page says what a level is for and how it is called, and lists what it takes in the order of its
grammar. Entries of a list stand in two columns: what to type, and what is said of it.
-/

namespace FileWatch.CommandLine

/-- The name that stands for the value of an option. -/
def OptionSpec.valueName (o : OptionSpec) : String :=
  String.ofList (o.long.toList.map fun c => if c == '-' then '_' else c.toUpper)

/-- How an option is typed. Those without a letter leave its room free. -/
def OptionSpec.spelling (o : OptionSpec) : String :=
  let letter := match o.short with
    | some c => "-" ++ String.singleton c ++ ", "
    | none => "    "
  let value := match o.kind with
    | .value _ => " <" ++ o.valueName ++ ">"
    | .counter => "..."
    | _ => ""
  letter ++ "--" ++ o.long ++ value

/-- How operands are typed. -/
def OperandSpec.spelling (o : OperandSpec) : String :=
  (if o.isRequired then "<" ++ o.name ++ ">" else "[" ++ o.name ++ "]")
    ++ (if o.isRepeated then "..." else "")

/-- A list under a title, in two columns. There is no list without entries. -/
def listing (title : String) (rows : List (String × String)) : String :=
  if rows.isEmpty then ""
  else
    let width := (rows.map fun r => r.1.length).foldl max 0
    let line := fun (r : String × String) =>
      "  " ++ String.ofList (r.1.toList.rightpad width ' ') ++ "  " ++ r.2 ++ "\n"
    "\n" ++ title ++ ":\n" ++ String.join (rows.map line)

/-- How a level is called. -/
def Grammar.usageLine (g : Grammar) : String :=
  "Usage: " ++ g.name
    ++ (if g.options.isEmpty then "" else " [OPTIONS]")
    ++ (g.operands.map fun o => " " ++ o.spelling).getD ""
    ++ (if g.commands.isEmpty then "" else " <COMMAND>") ++ "\n"

/-- The help on a level. -/
def Grammar.helpPage (g : Grammar) : String :=
  g.about ++ "\n\n" ++ g.usageLine
    ++ listing "Commands" g.commands
    ++ listing "Arguments" (g.operands.toList.map fun o => (o.spelling, o.about))
    ++ listing "Options" (g.options.map fun o => (o.spelling, o.about))

end FileWatch.CommandLine
