/-!
# File system errors

What can go wrong when the library touches files, and the text each failure
reads as. An operating-system failure keeps its error number, so its text is
the system's description followed by `(os error n)`; a failure made up by the
library itself carries only a kind.

    FsError.transient e ↔ e is an I/O failure of a passing kind, or a lock failure
-/

namespace ModMirror

/-- Broad classes of I/O failure. -/
inductive IoKind where
  | notFound | permissionDenied | connectionRefused | connectionReset
  | hostUnreachable | networkUnreachable | connectionAborted | notConnected
  | addrInUse | addrNotAvailable | networkDown | brokenPipe | alreadyExists
  | wouldBlock | notADirectory | isADirectory | directoryNotEmpty
  | readOnlyFilesystem | filesystemLoop | staleNetworkFileHandle | invalidInput
  | invalidData | timedOut | writeZero | storageFull | notSeekable
  | quotaExceeded | fileTooLarge | resourceBusy | executableFileBusy | deadlock
  | crossesDevices | tooManyLinks | invalidFilename | argumentListTooLong
  | interrupted | unsupported | unexpectedEof | outOfMemory | other
  | uncategorized
  deriving DecidableEq, Repr

namespace IoKind

/-- The short description of a kind, as printed for a failure with no other text. -/
def description : IoKind → String
  | notFound => "entity not found"
  | permissionDenied => "permission denied"
  | connectionRefused => "connection refused"
  | connectionReset => "connection reset"
  | hostUnreachable => "host unreachable"
  | networkUnreachable => "network unreachable"
  | connectionAborted => "connection aborted"
  | notConnected => "not connected"
  | addrInUse => "address in use"
  | addrNotAvailable => "address not available"
  | networkDown => "network down"
  | brokenPipe => "broken pipe"
  | alreadyExists => "entity already exists"
  | wouldBlock => "operation would block"
  | notADirectory => "not a directory"
  | isADirectory => "is a directory"
  | directoryNotEmpty => "directory not empty"
  | readOnlyFilesystem => "read-only filesystem or storage medium"
  | filesystemLoop => "filesystem loop or indirection limit (e.g. symlink loop)"
  | staleNetworkFileHandle => "stale network file handle"
  | invalidInput => "invalid input parameter"
  | invalidData => "invalid data"
  | timedOut => "timed out"
  | writeZero => "write zero"
  | storageFull => "no storage space"
  | notSeekable => "seek on unseekable file"
  | quotaExceeded => "filesystem quota exceeded"
  | fileTooLarge => "file too large"
  | resourceBusy => "resource busy"
  | executableFileBusy => "executable file busy"
  | deadlock => "deadlock"
  | crossesDevices => "cross-device link or rename"
  | tooManyLinks => "too many links"
  | invalidFilename => "invalid filename"
  | argumentListTooLong => "argument list too long"
  | interrupted => "operation interrupted"
  | unsupported => "unsupported"
  | unexpectedEof => "unexpected end of file"
  | outOfMemory => "out of memory"
  | other => "other error"
  | uncategorized => "uncategorized error"

/-- The name of a kind. -/
def name : IoKind → String
  | notFound => "NotFound"
  | permissionDenied => "PermissionDenied"
  | connectionRefused => "ConnectionRefused"
  | connectionReset => "ConnectionReset"
  | hostUnreachable => "HostUnreachable"
  | networkUnreachable => "NetworkUnreachable"
  | connectionAborted => "ConnectionAborted"
  | notConnected => "NotConnected"
  | addrInUse => "AddrInUse"
  | addrNotAvailable => "AddrNotAvailable"
  | networkDown => "NetworkDown"
  | brokenPipe => "BrokenPipe"
  | alreadyExists => "AlreadyExists"
  | wouldBlock => "WouldBlock"
  | notADirectory => "NotADirectory"
  | isADirectory => "IsADirectory"
  | directoryNotEmpty => "DirectoryNotEmpty"
  | readOnlyFilesystem => "ReadOnlyFilesystem"
  | filesystemLoop => "FilesystemLoop"
  | staleNetworkFileHandle => "StaleNetworkFileHandle"
  | invalidInput => "InvalidInput"
  | invalidData => "InvalidData"
  | timedOut => "TimedOut"
  | writeZero => "WriteZero"
  | storageFull => "StorageFull"
  | notSeekable => "NotSeekable"
  | quotaExceeded => "QuotaExceeded"
  | fileTooLarge => "FileTooLarge"
  | resourceBusy => "ResourceBusy"
  | executableFileBusy => "ExecutableFileBusy"
  | deadlock => "Deadlock"
  | crossesDevices => "CrossesDevices"
  | tooManyLinks => "TooManyLinks"
  | invalidFilename => "InvalidFilename"
  | argumentListTooLong => "ArgumentListTooLong"
  | interrupted => "Interrupted"
  | unsupported => "Unsupported"
  | unexpectedEof => "UnexpectedEof"
  | outOfMemory => "OutOfMemory"
  | other => "Other"
  | uncategorized => "Uncategorized"

def all : List IoKind :=
  [notFound, permissionDenied, connectionRefused, connectionReset, hostUnreachable, networkUnreachable, connectionAborted, notConnected, addrInUse, addrNotAvailable, networkDown, brokenPipe, alreadyExists, wouldBlock, notADirectory, isADirectory, directoryNotEmpty, readOnlyFilesystem, filesystemLoop, staleNetworkFileHandle, invalidInput, invalidData, timedOut, writeZero, storageFull, notSeekable, quotaExceeded, fileTooLarge, resourceBusy, executableFileBusy, deadlock, crossesDevices, tooManyLinks, invalidFilename, argumentListTooLong, interrupted, unsupported, unexpectedEof, outOfMemory, other, uncategorized]

def ofName? (s : String) : Option IoKind := all.find? (·.name == s)

/-- Kinds worth another attempt: the resource is busy or the call was cut short. -/
def passing : IoKind → Bool
  | wouldBlock | interrupted | timedOut | resourceBusy => true
  | _ => false

/-- The kind of a system error number. -/
def ofErrno : Nat → IoKind
  | 1 | 13 => permissionDenied
  | 2 => notFound
  | 4 => interrupted
  | 7 => argumentListTooLong
  | 11 => wouldBlock
  | 12 => outOfMemory
  | 16 => resourceBusy
  | 17 => alreadyExists
  | 18 => crossesDevices
  | 20 => notADirectory
  | 21 => isADirectory
  | 22 => invalidInput
  | 26 => executableFileBusy
  | 27 => fileTooLarge
  | 28 => storageFull
  | 29 => notSeekable
  | 30 => readOnlyFilesystem
  | 31 => tooManyLinks
  | 32 => brokenPipe
  | 35 => deadlock
  | 36 => invalidFilename
  | 38 => unsupported
  | 39 => directoryNotEmpty
  | 40 => filesystemLoop
  | 98 => addrInUse
  | 99 => addrNotAvailable
  | 100 => networkDown
  | 101 => networkUnreachable
  | 103 => connectionAborted
  | 104 => connectionReset
  | 107 => notConnected
  | 110 => timedOut
  | 111 => connectionRefused
  | 113 => hostUnreachable
  | 116 => staleNetworkFileHandle
  | 122 => quotaExceeded
  | _ => uncategorized

end IoKind

/-- The system's description of an error number. -/
def errnoText : Nat → String
  | 1 => "Operation not permitted"
  | 2 => "No such file or directory"
  | 4 => "Interrupted system call"
  | 5 => "Input/output error"
  | 11 => "Resource temporarily unavailable"
  | 12 => "Cannot allocate memory"
  | 13 => "Permission denied"
  | 16 => "Device or resource busy"
  | 17 => "File exists"
  | 18 => "Invalid cross-device link"
  | 20 => "Not a directory"
  | 21 => "Is a directory"
  | 22 => "Invalid argument"
  | 26 => "Text file busy"
  | 27 => "File too large"
  | 28 => "No space left on device"
  | 30 => "Read-only file system"
  | 32 => "Broken pipe"
  | 36 => "File name too long"
  | 39 => "Directory not empty"
  | 40 => "Too many levels of symbolic links"
  | 110 => "Connection timed out"
  | n => "Unknown error " ++ toString n

/-- A single I/O failure. -/
inductive IoError where
  /-- Reported by the operating system with an error number. -/
  | os (errno : Nat)
  /-- A failure of a kind, with no further text. -/
  | simple (kind : IoKind)
  /-- A failure of a kind with its own message. -/
  | custom (kind : IoKind) (message : String)
  deriving DecidableEq, Repr

namespace IoError

/-- The kind of the failure. -/
def kind : IoError → IoKind
  | os n => IoKind.ofErrno n
  | simple k => k
  | custom k _ => k

/-- The text of the failure. -/
def message : IoError → String
  | os n => errnoText n ++ " (os error " ++ toString n ++ ")"
  | simple k => k.description
  | custom _ m => m

/-- Worth another attempt: a passing kind, or a busy device or text file. -/
def transient (e : IoError) : Bool :=
  e.kind.passing || match e with
    | os 16 | os 26 => true
    | _ => false

abbrev notFound : IoError := .os 2

end IoError

/-- The two formats of configuration files. -/
inductive ConfigFormat where
  | json
  | toml
  deriving DecidableEq, Repr

/-- The name of a format as it appears in messages. -/
def ConfigFormat.name : ConfigFormat → String
  | .json => "JSON"
  | .toml => "TOML"

/-- Failures of the file layer. Paths are kept as they are displayed. -/
inductive FsError where
  | io (path : String) (cause : IoError)
  | retriesExhausted (path : String) (attempts : Nat) (cause : IoError)
  | configParse (path : String) (format : ConfigFormat) (message : String)
  | configSerialize (path : String) (format : ConfigFormat) (message : String)
  | unsupportedFormat (extension : String)
  | lockFailed (path : String)
  | pathTraversal (path : String)
  | invalidPath (path : String) (reason : String)
  | invalidIdentifier (name : String) (reason : String)
  deriving DecidableEq, Repr

namespace FsError

/-- The text of a failure. -/
def message : FsError → String
  | io p c => "I/O error at " ++ p ++ ": " ++ c.message
  | retriesExhausted p n c => "Giving up on " ++ p ++ " after " ++ toString n ++ " attempts: " ++ c.message
  | configParse p f m => "Failed to parse " ++ f.name ++ " config at " ++ p ++ ": " ++ m
  | configSerialize p f m => "Failed to serialize " ++ f.name ++ " config for " ++ p ++ ": " ++ m
  | unsupportedFormat e => "Unsupported config format: " ++ e
  | lockFailed p => "Lock acquisition failed for " ++ p
  | pathTraversal p => "Path '" ++ p ++ "' escapes its root"
  | invalidPath p r => "Invalid path '" ++ p ++ "': " ++ r
  | invalidIdentifier n r => "Invalid identifier '" ++ n ++ "': " ++ r

/-- The name of the failure's kind. -/
def kindName : FsError → String
  | io .. => "Io"
  | retriesExhausted .. => "RetriesExhausted"
  | configParse .. => "ConfigParse"
  | configSerialize .. => "ConfigSerialize"
  | unsupportedFormat .. => "UnsupportedFormat"
  | lockFailed .. => "LockFailed"
  | pathTraversal .. => "PathTraversal"
  | invalidPath .. => "InvalidPath"
  | invalidIdentifier .. => "InvalidIdentifier"

/-- Worth another attempt: a passing I/O failure or a lock held elsewhere. -/
def transient : FsError → Bool
  | io _ c => c.transient
  | lockFailed _ => true
  | _ => false

theorem transient_iff (e : FsError) :
    e.transient = true ↔ (∃ p c, e = .io p c ∧ c.transient = true) ∨ ∃ p, e = .lockFailed p := by
  constructor
  · intro h
    cases e with
    | io p c => exact .inl ⟨p, c, rfl, h⟩
    | lockFailed p => exact .inr ⟨p, rfl⟩
    | _ => simp [transient] at h
  · rintro (⟨p, c, rfl, hc⟩ | ⟨p, rfl⟩)
    · exact hc
    · rfl

end FsError

end ModMirror
