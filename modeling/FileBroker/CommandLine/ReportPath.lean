/-!
Where a report may be saved. A path leads to a folder and names an entry in it; the report is
refused before anything is written if there is no such folder, or if the entry is a folder itself.
-/
namespace FileBroker.CommandLine.ReportPath

/-- What stands after the last slash. -/
def name (path : String) : String :=
  String.ofList (path.toList.reverse.takeWhile (· != '/')).reverse

/-- What stands before it, which is empty for the folder that the program runs in. -/
def folder (path : String) : String :=
  let slashed := path.toList.reverse.dropWhile (· != '/')
  match slashed, slashed.dropWhile (· == '/') with
  | [], _ => ""
  | _, [] => "/"
  | _, kept => String.ofList kept.reverse

/-- The longest name an entry of a folder can have, in bytes. -/
def longestName : Nat := 255

def isSavable (isFolder : String → Bool) (path : String) : Bool :=
  let name := name path
  !(["", ".", ".."].contains name) && name.utf8ByteSize ≤ longestName
    && !path.toList.contains '\x00' && isFolder (folder path) && !isFolder path

end FileBroker.CommandLine.ReportPath
