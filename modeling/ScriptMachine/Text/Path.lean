import ScriptMachine.Text.Blank

/-!
# Paths

File paths with their components between slashes.
-/

namespace ScriptMachine.Text

/-- A path, reversed, without the slashes and the components `.` at its end. -/
def trimPathEnd : List Char → List Char
  | '/' :: cs => trimPathEnd cs
  | '.' :: '/' :: cs => trimPathEnd cs
  | cs => cs

/-- A file name without its last extension. A dot in front is part of the name. -/
def fileStem (name : List Char) : List Char :=
  let stem := (name.reverse.dropWhile (· != '.')).drop 1
  if stem.isEmpty then name else stem.reverse

/-- The path `path` with the last extension of its file name replaced. A path that ends in no file
name is left as it is. -/
def withExtension (path extension : String) : String :=
  let back := trimPathEnd path.toList.reverse
  let name := (back.takeWhile (· != '/')).reverse
  if name.isEmpty || name == ['.'] || name == ['.', '.'] then path
  else
    String.ofList ((back.dropWhile (· != '/')).reverse ++ fileStem name) ++ "." ++ extension

/-- The path of the directory that holds a file; empty for the current one. -/
def parentPath (path : String) : String :=
  let back := trimPathEnd path.toList.reverse
  let parent := back.dropWhile (· != '/')
  if parent.isEmpty then ""
  else
    match trimPathEnd parent with
    | [] => "/"
    | cs => String.ofList cs.reverse

/-- The components of a path, reversed, with one more behind them. An empty component and `.` stand
for the directory they are in, and `..` for the one around it. -/
def pushComponent (back : List (List Char)) (component : List Char) : List (List Char) :=
  if component.isEmpty || component == ['.'] then back
  else if component == ['.', '.'] then
    match back with
    | [] => [component]
    | parent :: rest => if parent == ['.', '.'] then component :: back else rest
  else component :: back

/-- The shortest spelling of a relative path that leads to the same file, where no directory is a
link. -/
def normalPath (path : String) : String :=
  let back := (split (· == '/') path.toList).foldl pushComponent []
  String.ofList (['/'].intercalate back.reverse)

end ScriptMachine.Text
