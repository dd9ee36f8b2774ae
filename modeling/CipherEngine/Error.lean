import CipherEngine.KeySizes

/-!
# Directions and engine errors

Every failure the engine reports is one constructor of `EngineError`, named for its cause;
the sentence shown to a user is written once, in `EngineError.message`.  The smaller
vocabularies the errors speak of live here too: the direction of a transform, the kind of
a name that failed to resolve, the reason two catalog entries cannot be paired, and the
failures of the outside world (files, readers, writers).
-/

namespace CipherEngine

/-! ## 1. Vocabulary -/

/-- Which way a transform runs. -/
inductive Direction where
  | encrypt
  | decrypt
  deriving DecidableEq, Repr

/-- The word for a direction, as messages use it. -/
def Direction.word : Direction → String
  | .encrypt => "encrypt"
  | .decrypt => "decrypt"

/-- The kind of a name that failed to resolve. -/
inductive NameKind where
  | algorithm
  | mode
  | cipherUnit
  deriving DecidableEq, Repr

/-- The words for a kind of name. -/
def NameKind.word : NameKind → String
  | .algorithm => "algorithm"
  | .mode => "mode"
  | .cipherUnit => "cipher unit"

/-- Why an algorithm and a mode cannot be paired. -/
inductive PairingFault where
  /-- A mode that feeds whole blocks, over an algorithm that has none. -/
  | blockModeOnStream
  /-- The byte stream mode, over a block algorithm. -/
  | streamModeOnBlock
  deriving DecidableEq, Repr

/-- The sentence for a pairing fault. -/
def PairingFault.reason : PairingFault → String
  | .blockModeOnStream => "block mode used with stream algorithm"
  | .streamModeOnBlock => "stream mode used with block algorithm"

/-- A failure of the outside world: a file, a directory, a reader or a writer. -/
inductive IoFault where
  | notFound
  | notADirectory
  /-- A path, or a name in it, longer than the system resolves. -/
  | nameTooLong
  /-- A path holding a zero byte, refused before the system sees it. -/
  | nulInName
  | invalidUtf8
  | readFailed
  | writeFailed
  deriving DecidableEq, Repr

/-- The system's text for an outside failure. -/
def IoFault.text : IoFault → String
  | .notFound => "No such file or directory (os error 2)"
  | .notADirectory => "Not a directory (os error 20)"
  | .nameTooLong => "File name too long (os error 36)"
  | .nulInName => "file name contained an unexpected NUL byte"
  | .invalidUtf8 => "stream did not contain valid UTF-8"
  | .readFailed => "read failed"
  | .writeFailed => "write failed"

/-! ## 2. Engine errors -/

/-- Every failure the engine reports, by cause. -/
inductive EngineError where
  /-- No entry of that kind has the name. -/
  | unknownName (kind : NameKind) (name : String)
  /-- The algorithm and the mode cannot work together. -/
  | incompatiblePairing (algorithm mode : String) (fault : PairingFault)
  /-- The key length is not among those the algorithm accepts. -/
  | keySize (algorithm : String) (actual : Nat) (accepted : AcceptedKeySizes)
  /-- The mode needs an initialisation vector and none was given. -/
  | ivRequired (mode : String)
  /-- The initialisation vector has the wrong length for the algorithm. -/
  | ivSize (expected actual : Nat)
  /-- A transform was asked of a context with no key. -/
  | notKeyed
  /-- A transform ran the other way since the last initialisation. -/
  | directionMismatch (started requested : Direction)
  /-- The outside world failed. -/
  | io (fault : IoFault)
  /-- A buffer, key or vector has the wrong length. -/
  | invalidLength (context : String) (expected actual : Nat)
  /-- A parameter was refused. -/
  | invalidParameter (context message : String)
  /-- A catalog manifest file is malformed or contradicts its unit. -/
  | manifest (path message : String)
  /-- The process-wide configuration was already installed. -/
  | alreadyConfigured
  deriving DecidableEq, Repr

namespace EngineError

/-- The name of the error's kind. -/
def kindName : EngineError → String
  | .unknownName .. => "UnknownName"
  | .incompatiblePairing .. => "IncompatiblePairing"
  | .keySize .. => "KeySize"
  | .ivRequired .. => "IvRequired"
  | .ivSize .. => "IvSize"
  | .notKeyed => "NotKeyed"
  | .directionMismatch .. => "DirectionMismatch"
  | .io .. => "Io"
  | .invalidLength .. => "InvalidLength"
  | .invalidParameter .. => "InvalidParameter"
  | .manifest .. => "Manifest"
  | .alreadyConfigured => "AlreadyConfigured"

/-- The sentence shown for an error. -/
def message : EngineError → String
  | .unknownName kind name => "unknown " ++ kind.word ++ " '" ++ name ++ "'"
  | .incompatiblePairing algorithm mode fault =>
    fault.reason ++ " (" ++ algorithm ++ "/" ++ mode ++ ")"
  | .keySize algorithm actual accepted =>
    "invalid key length " ++ toString actual ++ " for " ++ algorithm ++ " (accepted: " ++
      accepted.render ++ ")"
  | .ivRequired mode => "mode '" ++ mode ++ "' requires an iv"
  | .ivSize expected actual =>
    "iv size for this algorithm must be " ++ toString expected ++ " (got " ++
      toString actual ++ ")"
  | .notKeyed => "context is not keyed: init method not run"
  | .directionMismatch started requested =>
    "context is running " ++ started.word ++ "; reinit before " ++ requested.word
  | .io fault => "I/O error: " ++ fault.text
  | .invalidLength context expected actual =>
    context ++ ": invalid length (expected " ++ toString expected ++ ", got " ++
      toString actual ++ ")"
  | .invalidParameter context message => context ++ ": " ++ message
  | .manifest path message => "invalid manifest " ++ path ++ ": " ++ message
  | .alreadyConfigured => "engine already configured"

end EngineError

end CipherEngine
