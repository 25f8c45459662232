import CodeAgent.Command.Gate
import CodeAgent.Edit.Transaction
import CodeAgent.Index.Basic
import CodeAgent.Pattern.Syntax

namespace CodeAgent

inductive ToolFault where
  | fileNotFound (display : Text)
  | directoryNotFound (display : Text)
  | notAFile (display : Text)
  | notADirectory (display : Text)
  | deletesDirectory (display : Text)
  | binaryFile (display : Text)
  | edit (display : Text) (fault : Edit.Fault)
  | lineOrder (first last : Nat)
  | pattern (pattern : Text) (fault : Pattern.Fault)
  /-- For each file with a bad block: its path, and how many blocks were read of how many attempted. -/
  | malformedBlocks (files : List (Text × Nat × Nat))
  | busy (other : Text)
  | transaction (failure : TransactionFailure)
  | index (fault : IndexFault)
  | disk (fault : DiskFault)

namespace ToolFault

def editMessage (display : Text) : Edit.Fault → Text
  | .emptySearch => "edit_file on " ++ display ++ ": search text must not be empty"
  | .blanksDiffer search =>
    "edit_file failed for " ++ display ++ ": The search string exists but " ++
    "whitespace/indentation did not match exactly. Use read_file again to get " ++
    "the EXACT indentation, or write_file to overwrite the file.\nSearched for: \"" ++
    search.take 50 ++ "...\""
  | .notFound search =>
    "edit_file failed: could not find the following code block in " ++ display ++ ":\n\n" ++ search ++
    "\n\nMake sure you have the latest content via read_file."

def message : ToolFault → Text
  | fileNotFound display => "File not found: " ++ display
  | directoryNotFound display => "Directory not found: " ++ display
  | notAFile display => display ++ " is a directory, not a file"
  | notADirectory display => display ++ " is not a directory"
  | deletesDirectory display => display ++ " is a directory; delete_file only removes files"
  | binaryFile display => "Cannot read " ++ display ++ ": This appears to be a binary file."
  | edit display fault => editMessage display fault
  | lineOrder first last =>
    "end_line (" ++ Text.ofNat last ++ ") is before start_line (" ++ Text.ofNat first ++ ")"
  | pattern p fault =>
    if fault.cause.isLimit then fault.message p
    else "Invalid regex " ++ p.quoted ++ ": " ++ fault.message p
  | malformedBlocks files =>
    "Failed to parse diff blocks for " ++
    Text.joinWith ", " (files.map fun (path, found, attempted) =>
      path ++ " (" ++ Text.ofNat found ++ " of " ++ Text.ofNat attempted ++ " blocks parsed)") ++
    ". Use the exact format:\n<<<< SEARCH\n...\n====\n...\n>>>> REPLACE"
  | busy other => Gate.busyMessage other
  | transaction failure => failure.message
  | index (.backend fault) => fault.message
  | index (.disk fault) => fault.message
  | index .noVector => "list index out of range"
  | disk fault => fault.message

def ofTransaction : Transaction.Fault → ToolFault
  | .failed failure => .transaction failure
  | .disk fault => .disk fault

end ToolFault
end CodeAgent
