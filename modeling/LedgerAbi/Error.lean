/-
Everything that can go wrong, by cause.

Each stage of the library has its own type of causes, and `Error` is their sum. A cause carries what
its message names; `Error.message?` puts it into words. A `Fault` is a failure for which the library
has no words of its own: it says only what was at odds.
-/
import LedgerAbi.Abi.Type
import LedgerAbi.Value.Shown

namespace LedgerAbi

/-- The three kinds of entries that an ABI binds. -/
inductive EntryKind where
  | function
  | constructor
  | event
deriving DecidableEq, Inhabited

namespace EntryKind

def name : EntryKind → Text
  | function => "function"
  | constructor => "constructor"
  | event => "event"

def capitalized : EntryKind → Text
  | function => "Function"
  | constructor => "Constructor"
  | event => "Event"

end EntryKind

/-- Why a type or an ABI entry was rejected. -/
inductive InvalidType where
  /-- A type has to be a text. -/
  | notText (type : Value)
  /-- The text is not in the type grammar. -/
  | malformed (type : Text)
  /-- The text is in the grammar, but a base has a suffix that it cannot have. -/
  | badSuffix (type : Text)
  | tuple (type : Text)
  | unsupported (type : Text)
  | entryKind (kind : Value)
  | overlappingNames (kind : EntryKind) (name : Value) (keys : List Value)

/-- Which number of arguments was wrong. -/
inductive ArityMismatch where
  | values (types : List AbiType) (received : Nat)
  | undeclaredConstructor (received : Nat)
  | arguments (function : Option Text) (expected received : Nat)

/-- What an address was needed for. -/
inductive AddressUse where
  | call
  | subscribe
deriving DecidableEq

/-- Why a value does not fit its declared type once its texts are read. -/
inductive Misfit where
  /-- The value is of another kind, such as a text for a boolean or a scalar for an array. -/
  | wrongKind
  /-- An integer out of range, fixed bytes that are too long, a fixed array of another length. -/
  | outOfBounds
deriving DecidableEq, Inhabited

/-- Why an argument could not be encoded. -/
inductive EncodeFailure where
  | addressLength (bytes : Nat)
  | invalidAddress (value : Value)
  | notHex (text : Text)
  | notBytes (value : Value)
  | booleanInteger (b : Bool)
  | unreadableInteger (text : Text)
  | notInteger (value : Value)
  | misfit (types : List AbiType) (cause : Misfit)

/-- What is wrong with encoded data. -/
inductive Corruption where
  /-- The data ends inside a word or inside a byte sequence. -/
  | truncated
  /-- An offset points before the end of its head or past the data. -/
  | strayPointer
  /-- Bytes that have to be zero, or copies of a sign bit, are not. -/
  | dirtyPadding
  /-- A byte sequence claims `2 ^ 63` bytes or more. -/
  | lengthOverflow
  /-- A string is not in UTF-8. -/
  | invalidUtf8
deriving DecidableEq, Inhabited

/-- Why data could not be decoded. -/
inductive DecodeFailure where
  | notHex (data : Text)
  | corrupt (length : Nat) (types : List AbiType) (cause : Corruption)
  | topicCount (event : Text) (declared found : Nat)
  | topicLength (topics : List Text)
  | noContractAddress
deriving Inhabited

/-- An exception that the ledger reported. -/
inductive ExecutionFailure where
  | reverted (reason : Text) (code : Int)
  | failed (message : Value) (code : Int)

/-- Why a name does not select an entry of an ABI. -/
inductive LookupFailure where
  | notFound (kind : EntryKind) (name : Text)
  | overloaded (kind : EntryKind) (name : Text) (signatures : List Text)

/-- Why the node could not be asked, or its answer not be used. -/
inductive TransportFailure where
  /-- A failure in the transport's own words. -/
  | reported (message : Text)
  /-- The node ended a subscription stream. -/
  | ended (message : Text)
  | unexpectedStatus (status : Int) (url : Text)
  | malformedJson (url : Text)
  | unreachable (url cause : Text)
  | timeout (url : Text)
  | notAnObject (url : Text) (response : Value)
  | missingResult (url : Text) (response : Value)
  | errorResponse (error : Value)
  | malformedResult (result : Value)
  | subscriptionError (error : Value)
  | malformedMessage (raw : Text)
  | websocket (cause : Text)
  | subscribeFailed (url cause : Text)

/-- Failures outside the library's own vocabulary. -/
inductive Fault where
  /-- Bytecode that is not hexadecimal. -/
  | badHex
  /-- A type text outside the grammar that holds an empty tuple. -/
  | emptyTuple
  | unknownMutability
  /-- An integer with too many digits to be written out or read. -/
  | overlongInteger
  /-- An array length with too many digits. -/
  | overlongDimension
  /-- A JSON text with brackets nested deeper than its reader follows. -/
  | tooDeep
  /-- A value of a kind that an operation does not take. -/
  | wrongKind
  /-- Members were asked of a value that has none. -/
  | noMembers
  | missingKey
  | missingIndex
  | notAscii
  /-- A text that has no encoded form. -/
  | unencodable
  | invalidConfig
  /-- An infinite number where an integer is needed. -/
  | infiniteNumber
  /-- A length that is no signed 64-bit number, or near the largest of them. -/
  | lengthOverflow
  /-- A length in range that no memory holds. -/
  | outOfMemory
  | noEventLoop
  | cancelled
  /-- A name that is no member of a binding, with the failed look-up if there was one. -/
  | unknownMember (lookup : Option LookupFailure)
  /-- Events of a subscription with a callback go to the callback alone. -/
  | callbackIteration
  /-- A network failure of an unforeseen sort. -/
  | network

/-- A failure of any stage. -/
inductive Error where
  | invalidType (cause : InvalidType)
  | arity (cause : ArityMismatch)
  | missingAddress (purpose : AddressUse) (name : Text)
  | encode (cause : EncodeFailure)
  | decode (cause : DecodeFailure)
  | execution (cause : ExecutionFailure)
  | lookup (cause : LookupFailure)
  | subscriptionClosed (event : Text)
  | transport (cause : TransportFailure)
  | fault (cause : Fault)

/-- Canonical names as a list of quoted texts. -/
def AbiType.shownList (types : List AbiType) : Text := Value.shownTexts (types.map canonical)

namespace InvalidType

def message : InvalidType → Text
  | notText v => "Type must be a string, but got " ++ v.shown ++ " of type " ++ v.kindShown
  | malformed t => "Invalid ABI type " ++ t.quoted
  | badSuffix t => "Invalid ABI type " ++ t.quoted
  | tuple t => "Tuple types are not supported: " ++ t
  | unsupported t => "Unsupported ABI type: " ++ t.quoted
  | entryKind v => "Unsupported ABI entry type: " ++ v.plain
  | overlappingNames kind name keys =>
    kind.capitalized ++ " " ++ name.plain ++ " has overlapping parameter names: "
      ++ (Value.list keys).shown

end InvalidType

namespace ArityMismatch

def message : ArityMismatch → Text
  | values types n => "Expected " ++ Text.ofNat types.length ++ " values for types "
      ++ AbiType.shownList types ++ ", received " ++ Text.ofNat n
  | undeclaredConstructor n => "Contract does not declare a constructor, but received "
      ++ Text.ofNat n ++ " arguments"
  | arguments name expected n => "Function " ++ name.getD "constructor" ++ " expects "
      ++ Text.ofNat expected ++ " arguments, received " ++ Text.ofNat n

end ArityMismatch

namespace EncodeFailure

def message : EncodeFailure → Text
  | addressLength n => "Address must be 20 bytes, received " ++ Text.ofNat n ++ " bytes"
  | invalidAddress v => "Invalid address: " ++ v.shown
  | notHex t => "Bytes values must be hex strings, received " ++ t.quoted
  | notBytes v => "Cannot encode " ++ v.shown ++ " of type " ++ v.kindShown ++ " as bytes"
  | booleanInteger b => "Cannot encode boolean " ++ (Value.bool b).shown ++ " as an integer"
  | unreadableInteger t => "Cannot parse integer from " ++ t.quoted
  | notInteger v => "Cannot encode " ++ v.shown ++ " of type " ++ v.kindShown ++ " as an integer"
  | misfit types _ => "Cannot encode values as " ++ AbiType.shownList types

end EncodeFailure

namespace DecodeFailure

def message : DecodeFailure → Text
  | notHex t => "Data is not valid hex: " ++ t.quoted
  | corrupt n types _ => "Cannot decode " ++ Text.ofNat n ++ " bytes as " ++ AbiType.shownList types
  | topicCount event declared found => "Event " ++ event ++ " declares " ++ Text.ofNat declared
      ++ " indexed parameters, but log has " ++ Text.ofNat found ++ " argument topics"
  | topicLength topics => "Log topics must be 32 bytes: " ++ Value.shownTexts topics
  | noContractAddress => "Contract creation did not return a contract address"

end DecodeFailure

namespace ExecutionFailure

def code : ExecutionFailure → Int
  | reverted _ code => code
  | failed _ code => code

def message : ExecutionFailure → Text
  | reverted reason _ => reason
  | failed message code =>
    if message.isTruthy then message.plain
    else "Execution failed with exception code " ++ Text.ofInt code

end ExecutionFailure

namespace LookupFailure

def message : LookupFailure → Text
  | notFound kind name => kind.capitalized ++ " " ++ name ++ " not found in ABI"
  | overloaded kind name signatures => kind.capitalized ++ " " ++ name
      ++ " is overloaded.  Select one of " ++ Value.shownTexts signatures ++ " by full signature"

end LookupFailure

namespace TransportFailure

def isEnded : TransportFailure → Bool
  | ended _ => true
  | _ => false

def message : TransportFailure → Text
  | reported text => text
  | ended text => text
  | unexpectedStatus status url => "Unexpected response with status " ++ Text.ofInt status
      ++ " from " ++ url
  | malformedJson url => "Malformed JSON returned by " ++ url
  | unreachable url cause => "Could not connect to " ++ url ++ ": " ++ cause
  | timeout url => "Timeout Error for RPC Host " ++ url
  | notAnObject url response => "Unexpected RPC response from " ++ url ++ ": " ++ response.plain
  | missingResult url response => "RPC response from " ++ url ++ " is missing a result: "
      ++ response.plain
  | errorResponse error => "Error in RPC response: " ++ error.plain
  | malformedResult result => "Malformed result returned by node: " ++ result.plain
  | subscriptionError error => "Subscription error: " ++ error.plain
  | malformedMessage raw => "Malformed subscription message: " ++ raw.take 200
  | websocket cause => "Websocket error: " ++ cause
  | subscribeFailed url cause => "Could not subscribe to logs at " ++ url ++ ": " ++ cause

end TransportFailure

namespace Error

/-- The failure in words, for the failures that the library has words for. -/
def message? : Error → Option Text
  | invalidType cause => some cause.message
  | arity cause => some cause.message
  | missingAddress .call name => some ("Address not provided to call " ++ name)
  | missingAddress .subscribe name => some ("Address not provided to subscribe to " ++ name)
  | encode cause => some cause.message
  | decode cause => some cause.message
  | execution cause => some cause.message
  | lookup cause => some cause.message
  | subscriptionClosed event => some ("Subscription to " ++ event
      ++ " was closed and cannot be restarted")
  | transport cause => some cause.message
  | fault (.unknownMember (some cause)) => some cause.message
  | fault .callbackIteration => some ("Subscriptions with a callback deliver events to the callback "
      ++ "and cannot be iterated")
  | fault _ => none

end Error

end LedgerAbi
