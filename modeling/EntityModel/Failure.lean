/-!
# Failures

Everything that a conversion can fail with, and how it is reported.
-/

namespace EntityModel

inductive FileError where
  | notFound
  | notDirectory
  | isDirectory
  | invalidName
  | nameTooLong
  /-- Anything else, as the system puts it. -/
  | system (text : String)
deriving DecidableEq

namespace FileError

def message : FileError → String
  | .notFound => "no such file or directory"
  | .notDirectory => "not a directory"
  | .isDirectory => "is a directory"
  | .invalidName => "file name contains a NUL character"
  | .nameTooLong => "file name too long"
  | .system text => text

end FileError

/-- Why a name is no name of an output file. -/
inductive NameFault where
  | blank
  | absolute
  | traversal
  | separator
deriving DecidableEq

namespace NameFault

def message : NameFault → String
  | .blank => "output name must not be empty"
  | .absolute => "absolute paths are not allowed"
  | .traversal => "traversal segments are not allowed"
  | .separator => "path separators are not allowed"

end NameFault

/-- What a conversion fails with. Reports come from the program that failed. -/
inductive Failure where
  /-- A source file is not well formed: the line and the column of the first error, counted from
  one, and the text that stands there. -/
  | malformed (file : String) (line column : Nat) (snippet : String)
  /-- The grammar of source files could not be loaded. -/
  | grammar (report : String)
  | file (error : FileError)
  /-- The entity model could not be written down. -/
  | model (report : String)
  /-- A command of the version control failed. -/
  | command (arguments report : String)
  /-- A repository does not have a folder. -/
  | missingFolder (folder checkout : String)
  | outputName (name : String) (fault : NameFault)
deriving DecidableEq

namespace Failure

def message : Failure → String
  | .malformed source line column snippet =>
    source ++ ":" ++ Nat.repr line ++ ":" ++ Nat.repr column ++ ": syntax error near \x60" ++
      snippet ++ "\x60"
  | .grammar report => "failed to load TypeScript grammar: " ++ report
  | .file error => "io error: " ++ error.message
  | .model report => "json error: " ++ report
  | .command arguments report => "\x60git " ++ arguments ++ "\x60 failed: " ++ report
  | .missingFolder folder checkout => "subfolder '" ++ folder ++ "' not found in " ++ checkout
  | .outputName name fault => "invalid output name '" ++ name ++ "': " ++ fault.message

end Failure

end EntityModel
