namespace BitStore

/-!
# Failures of the storage system

`FailureKind` is the coarse class of a failure and `StorageError` its cause.
A cause determines its class and its text; two causes may share a class, as an
empty mapping and a path with a null character do.
-/

inductive FailureKind where
  | notFound
  | permissionDenied
  | alreadyExists
  | notADirectory
  | isADirectory
  | invalidInput
  | invalidData
  | invalidFilename
  | fileTooLarge
  | writeZero
  | interrupted
  | unsupported
  | unexpectedEnd
  | outOfMemory
  | other
  deriving DecidableEq, Repr

/-- What a class is called where no cause is known. -/
def FailureKind.message : FailureKind -> String
  | .notFound => "entity not found"
  | .permissionDenied => "permission denied"
  | .alreadyExists => "entity already exists"
  | .notADirectory => "not a directory"
  | .isADirectory => "is a directory"
  | .invalidInput => "invalid input parameter"
  | .invalidData => "invalid data"
  | .invalidFilename => "invalid filename"
  | .fileTooLarge => "file too large"
  | .writeZero => "write zero"
  | .interrupted => "operation interrupted"
  | .unsupported => "unsupported"
  | .unexpectedEnd => "unexpected end of file"
  | .outOfMemory => "out of memory"
  | .other => "other error"

/-- Why the storage system refused an operation.  Of a bare cause only the class is known, and
a described one has the text of whoever reports it. -/
inductive StorageError where
  | notFound
  | notPermitted
  | noMemory
  | alreadyExists
  | notADirectory
  | isADirectory
  | invalidPosition
  | fileTooLarge
  | nameTooLong
  | endOfFile
  | nullInPath
  | lengthOutOfRange
  | emptyMapping
  | mappingUnavailable
  | bare (kind : FailureKind)
  | described (kind : FailureKind) (text : String)
  deriving DecidableEq, Repr

namespace StorageError

def kind : StorageError -> FailureKind
  | .notFound => .notFound
  | .notPermitted => .permissionDenied
  | .noMemory => .outOfMemory
  | .alreadyExists => .alreadyExists
  | .notADirectory => .notADirectory
  | .isADirectory => .isADirectory
  | .invalidPosition => .invalidInput
  | .fileTooLarge => .fileTooLarge
  | .nameTooLong => .invalidFilename
  | .endOfFile => .unexpectedEnd
  | .nullInPath => .invalidInput
  | .lengthOutOfRange => .invalidInput
  | .emptyMapping => .invalidInput
  | .mappingUnavailable => .unsupported
  | .bare kind => kind
  | .described kind _ => kind

def message : StorageError -> String
  | .notFound => "No such file or directory (os error 2)"
  | .notPermitted => "Operation not permitted (os error 1)"
  | .noMemory => "Cannot allocate memory (os error 12)"
  | .alreadyExists => "File exists (os error 17)"
  | .notADirectory => "Not a directory (os error 20)"
  | .isADirectory => "Is a directory (os error 21)"
  | .invalidPosition => "Invalid argument (os error 22)"
  | .fileTooLarge => "File too large (os error 27)"
  | .nameTooLong => "File name too long (os error 36)"
  | .endOfFile => "failed to fill whole buffer"
  | .nullInPath => "file name contained an unexpected NUL byte"
  | .lengthOutOfRange => "number too large to fit in target type"
  | .emptyMapping => "cannot map an empty range"
  | .mappingUnavailable => "memory-mapped files are not supported on this platform"
  | .bare kind => kind.message
  | .described _ text => text

end StorageError
end BitStore
