/-!
Why a file operation fails, and the texts of these failures. Failures for want of permission are not
among them, as files and directories have no permissions.
-/

set_option autoImplicit false
set_option relaxedAutoImplicit false

namespace TextArchive.File

inductive FileError where
  | notFound
  | inputOutput
  | noSuchDevice
  | notADirectory
  | isADirectory
  | nameTooLong
  | tooManyLinks
  /-- The path holds a zero byte. -/
  | zeroByte
deriving DecidableEq, Repr

/-- The system's number for a failure, if it comes from the system. -/
def FileError.number? : FileError → Option Nat
  | .notFound => some 2
  | .inputOutput => some 5
  | .noSuchDevice => some 6
  | .notADirectory => some 20
  | .isADirectory => some 21
  | .nameTooLong => some 36
  | .tooManyLinks => some 40
  | .zeroByte => none

def FileError.title : FileError → String
  | .notFound => "No such file or directory"
  | .inputOutput => "Input/output error"
  | .noSuchDevice => "No such device or address"
  | .notADirectory => "Not a directory"
  | .isADirectory => "Is a directory"
  | .nameTooLong => "File name too long"
  | .tooManyLinks => "Too many levels of symbolic links"
  | .zeroByte => "file name contained an unexpected NUL byte"

def FileError.message (e : FileError) : String :=
  match e.number? with
  | some n => e.title ++ " (os error " ++ toString n ++ ")"
  | none => e.title

end TextArchive.File
