/-!
# Faults of the host

The errors with which the operating system refuses to open, read, bind or dial
something, and their wording.
-/

namespace ElementAgent

/-- Why the host refuses. -/
inductive HostFault where
  | noEntry
  | notDirectory
  | isDirectory
  | nameTooLong
  /-- Nobody listens at the other end. -/
  | refused
  /-- The path does not fit the address of a socket. -/
  | addressTooLong
  /-- Any other fault, with its wording. -/
  | other (text : String)
  deriving DecidableEq

def HostFault.message : HostFault → String
  | .noEntry => "No such file or directory (os error 2)"
  | .notDirectory => "Not a directory (os error 20)"
  | .isDirectory => "Is a directory (os error 21)"
  | .nameTooLong => "File name too long (os error 36)"
  | .refused => "Connection refused (os error 111)"
  | .addressTooLong => "path must be shorter than SUN_LEN"
  | .other text => text

end ElementAgent
