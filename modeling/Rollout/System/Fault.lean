/-!
# System/Fault — why the operating system refuses

A `SystemFault` is the cause of a failed file, process or socket operation, `SystemFault.message`
its usual wording with the number of the error.
-/

namespace Rollout

/-- **Why an operation of the operating system fails.** -/
inductive SystemFault where
  | noEntry
  | inputOutput
  | noDevice
  | badExecutable
  | permission
  | busy
  | exists
  | notDirectory
  | isDirectory
  | invalid
  | nameTooLong
  | unsupported
  | notEmpty
  | tooManyLinks
  | addressInUse
  | refused
  /-- The content is no UTF-8 text. -/
  | notText
  /-- A path holds a NUL. -/
  | nulInPath
  /-- An argument of a command holds a NUL. -/
  | nulInArgument
  /-- Only a regular file can be copied. -/
  | notRegular
  /-- The path of a socket does not fit its address. -/
  | socketPathTooLong
  /-- The path of a socket holds a NUL. -/
  | nulInSocketPath
  deriving DecidableEq, Repr

/-- The wording of a fault. -/
def SystemFault.message : SystemFault → String
  | .noEntry => "No such file or directory (os error 2)"
  | .inputOutput => "Input/output error (os error 5)"
  | .noDevice => "No such device or address (os error 6)"
  | .badExecutable => "Exec format error (os error 8)"
  | .permission => "Permission denied (os error 13)"
  | .busy => "Device or resource busy (os error 16)"
  | .exists => "File exists (os error 17)"
  | .notDirectory => "Not a directory (os error 20)"
  | .isDirectory => "Is a directory (os error 21)"
  | .invalid => "Invalid argument (os error 22)"
  | .nameTooLong => "File name too long (os error 36)"
  | .unsupported => "Function not implemented (os error 38)"
  | .notEmpty => "Directory not empty (os error 39)"
  | .tooManyLinks => "Too many levels of symbolic links (os error 40)"
  | .addressInUse => "Address already in use (os error 98)"
  | .refused => "Connection refused (os error 111)"
  | .notText => "stream did not contain valid UTF-8"
  | .nulInPath => "file name contained an unexpected NUL byte"
  | .nulInArgument => "nul byte found in provided data"
  | .notRegular =>
    "the source path is neither a regular file nor a symlink to a regular file"
  | .socketPathTooLong => "path must be shorter than SUN_LEN"
  | .nulInSocketPath => "paths must not contain interior null bytes"

/-- The fault of an error number; the less usual ones are not told apart. -/
def SystemFault.ofNumber : Nat → SystemFault
  | 2 => .noEntry
  | 6 => .noDevice
  | 8 => .badExecutable
  | 1 | 13 => .permission
  | 16 => .busy
  | 17 => .exists
  | 20 => .notDirectory
  | 21 => .isDirectory
  | 22 => .invalid
  | 36 => .nameTooLong
  | 38 => .unsupported
  | 39 => .notEmpty
  | 40 => .tooManyLinks
  | 98 => .addressInUse
  | 111 => .refused
  | _ => .inputOutput

end Rollout
