import DateSpan.Fault
import DateSpan.Text.Word

/-! Files of settings: what they load to, and which file stands in for a path. A file whose name ends
in `.py` holds assignments, one for each name; any other holds data as they are. -/

namespace DateSpan.Settings

inductive FileContent
  | data (d : Datum)
  | empty
  | malformed
  /-- What makes its loading fail with an error of its own: its bytes are no text, say, or its data are
  nested too deep. -/
  | failing (f : Fault)

abbrev Files := List (List String × FileContent)

def reservedWords : List String :=
  ["False", "None", "True", "__debug__", "and", "as", "assert", "async", "await", "break", "class",
    "continue", "def", "del", "elif", "else", "except", "finally", "for", "from", "global", "if",
    "import", "in", "is", "lambda", "nonlocal", "not", "or", "pass", "raise", "return", "try", "while",
    "with", "yield"]

def isAssignable (name : String) : Bool :=
  Text.isWord name && !reservedWords.contains name

/-- A path less the extension of its last component; points that a name starts with belong to it. -/
def stem (path : String) : String :=
  let reversed := path.toList.reverse
  let name := (reversed.takeWhile (· ≠ '/')).reverse
  let directory := path.toList.take (reversed.length - name.length)
  let dots := name.takeWhile (· = '.')
  let rest := name.dropWhile (· = '.')
  if '.' ∈ rest then
    String.ofList (directory ++ dots ++ ((rest.reverse.dropWhile (· ≠ '.')).drop 1).reverse)
  else path

def assignmentPath (path : String) : String :=
  stem path ++ ".py"

def namesAssignments (path : String) : Bool :=
  path.endsWith ".py"

/-- The table that the file at a path loads to; whatever counts as false is an empty one. Assignments
in a file that is nothing but an extension are taken for data, which are then a text. -/
def FileContent.table (path : String) : FileContent → Except Fault Table
  | .malformed => .error (.unreadableFile path)
  | .failing f => .error f
  | .empty => .ok []
  | .data (.dict t) =>
    if ¬ namesAssignments path then .ok t
    else if assignmentPath path ≠ path then .error (.fileNotTable path (Datum.text path).typeName)
    else if (Table.names t).all fun name => name.asText?.any isAssignable then .ok t
    else .error (.unreadableFile path)
  | .data d => if d.truthy then .error (.fileNotTable path d.typeName) else .ok []

/-- The components of a path, without those that lead nowhere; none if the path leaves the directory
of the files or ends in no name. -/
def place? (path : String) : Option (List String) :=
  let parts := path.splitOn "/"
  if parts.head? = some "" ∨ ".." ∈ parts ∨ parts.getLast? = some "" ∨ parts.getLast? = some "."
  then none
  else some (parts.filter fun part => part ≠ "" ∧ part ≠ ".")

namespace Files

def content? (files : Files) (path : String) : Option FileContent := do
  List.lookup (← place? path) files

def remove (files : Files) (path : String) : Files :=
  files.filter fun (place, _) => some place ≠ place? path

def write (files : Files) (path : String) (content : FileContent) : Files :=
  match place? path with
  | some place => (place, content) :: files.remove path
  | none => files

def ofList (contents : List (String × FileContent)) : Files :=
  contents.foldl (fun files (path, content) => files.write path content) []

def find? (files : Files) (path : String) : Option String :=
  [assignmentPath path, path].find? fun p => (files.content? p).isSome

end Files

end DateSpan.Settings
