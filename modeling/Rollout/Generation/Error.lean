/-!
# Generation/Error — why a desired state cannot be built

`BuildError` names the first fault that building finds, `BuildError.message` words it.
-/

namespace Rollout

/-- What a checked name is the name of. -/
inductive NameKind where
  | hostname
  | path
  | backendId
  | serverName
  deriving DecidableEq, Repr

/-- The word for a kind of name. -/
def NameKind.word : NameKind → String
  | .hostname => "hostname"
  | .path => "path"
  | .backendId => "backend id"
  | .serverName => "server name"

/-- Why a name cannot stand in a map line, a server line or a file name. -/
inductive NameFault where
  | empty
  | slash
  | doubleDot
  | blank
  | control
  deriving DecidableEq, Repr

/-- The wording of a fault. -/
def NameFault.message : NameFault → String
  | .empty => "is empty"
  | .slash => "contains '/'"
  | .doubleDot => "contains '..'"
  | .blank => "contains whitespace"
  | .control => "contains a control character"

/-- Why an enabled server cannot take traffic. -/
inductive ServerFault where
  | portZero
  | notAnAddress (ip : String)
  deriving DecidableEq, Repr

/-- The wording of a fault. -/
def ServerFault.message : ServerFault → String
  | .portZero => "port must be greater than zero"
  | .notAnAddress ip => "'" ++ ip ++ "' is not an IP address"

/-- **Why a phase fails.** -/
inductive BuildError where
  | emptyHostname
  | invalidName (kind : NameKind) (name : String) (fault : NameFault)
  | duplicateHost (host : String)
  | duplicatePath (host path : String)
  | passthroughWithPaths (host : String)
  | unknownBackend (backend host path : String)
  | unknownDefaultBackend (backend : String)
  | duplicateBackend (backend : String)
  | duplicateServer (backend server : String)
  | invalidServer (backend server : String) (fault : ServerFault)
  deriving DecidableEq, Repr

/-- The wording of an error. -/
def BuildError.message : BuildError → String
  | .emptyHostname => "host entry with an empty hostname"
  | .invalidName kind name fault => kind.word ++ " '" ++ name ++ "' " ++ fault.message
  | .duplicateHost host => "host '" ++ host ++ "' is declared more than once"
  | .duplicatePath host path => "host '" ++ host ++ "' routes path '" ++ path ++ "' more than once"
  | .passthroughWithPaths host =>
    "ssl-passthrough host '" ++ host ++ "' can only route the root path"
  | .unknownBackend backend host path =>
    "backend '" ++ backend ++ "' referenced by " ++ host ++ path ++ " does not exist"
  | .unknownDefaultBackend backend => "default backend '" ++ backend ++ "' does not exist"
  | .duplicateBackend backend => "backend '" ++ backend ++ "' is declared more than once"
  | .duplicateServer backend server =>
    "backend '" ++ backend ++ "' has more than one server named '" ++ server ++ "'"
  | .invalidServer backend server fault =>
    "backend '" ++ backend ++ "' server '" ++ server ++ "': " ++ fault.message

end Rollout
