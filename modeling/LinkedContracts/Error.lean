import LinkedContracts.Json.Writer
import LinkedContracts.Text.Split

/-! # Errors

    What can go wrong, one constructor per cause.  Every error has a kind,
    which its message starts with, and is either expected (the answer to a
    request that may not be granted) or a fault of the caller or the
    store. -/

namespace LinkedContracts

/-- The kinds of errors. -/
inductive ErrorKind where
  | compile
  | permissions
  | schemaMismatch
  | invalidPatch
  | databaseTimeout
  | noElement
  | elementAlreadyExists
  | invalidSlug
  | invalidVersion
  | invalidId
  | invalidLimit
  | invalidSession
  | unknownType
  | config
  | database
  | json
  | engine
deriving DecidableEq

/-- Why a patch operation does not apply. -/
inductive PatchFault where
  /-- The path is not a pointer. -/
  | malformedPath (path : String)
  | wholeContract
  | missing (path : String)
  | intoItself (source : String)
  | testFailed (path : String)
  | missingParent (tokens : List String)
  | badIndex (token : String)
  | addToScalar (token : String)
  | removeFromScalar (token : String)

/-- An error. -/
inductive Error where
  -- schemas and statements
  | schemaNotObject (got : Json)
  | malformedSchema
  | badPattern
  | misplacedLinks (keys : List String)
  | viewWithoutSchema (slug key : String) (index : Nat)
  | limitNotPositive
  | limitOutOfRange (most got : Nat)
  -- contracts
  | contractNotObject (got : Json)
  | contractWithoutType
  | malformedContract
  | mismatch (faults : List String)
  | invalidUpdate
  | slugUndefined
  | idUndefined
  | badVersion (text : String)
  | noVersionReference (reference : String)
  | unknownType (reference : String)
  | malformedJson
  -- patches
  | malformedPatch
  | badPointer (path : String)
  | pathMissing (path slug : String)
  | patchDoesNotApply (slug : String) (fault : PatchFault)
  -- permissions and sessions
  | mayNotReplace (reference : String)
  | mayNotChange (key reference : String)
  | patchedInvisible (reference : String)
  | mayNotWrite (reference : String)
  | badSession (id : String)
  | sessionExpired (id : String)
  | notInitialized
  -- configuration
  | malformedConfig
  | emptyTableName
  | sharedTable (name : String)
  | maxLimitZero
  | defaultLimitOutOfRange (most : Nat)
  -- the store
  | noElement (reference : String)
  | alreadyExists (reference id : String)
  | timedOut (operation : String)
  | tableRefused
  | streamClosed
  | stopped
  | aborted

namespace ErrorKind

/-- What messages of a kind start with. -/
def title : ErrorKind → String
  | compile => "Compile error"
  | permissions => "Permissions error"
  | schemaMismatch => "Schema mismatch"
  | invalidPatch => "Invalid patch"
  | databaseTimeout => "Database timeout"
  | noElement => "No such element"
  | elementAlreadyExists => "Element already exists"
  | invalidSlug => "Invalid slug"
  | invalidVersion => "Invalid version"
  | invalidId => "Invalid id"
  | invalidLimit => "Invalid limit"
  | invalidSession => "Invalid session"
  | unknownType => "Unknown contract type"
  | config => "Invalid configuration"
  | database => "Database error"
  | json => "JSON error"
  | engine => "SQLite error"

/-- Whether errors of a kind are answers rather than faults. -/
def expected : ErrorKind → Bool
  | permissions | schemaMismatch | invalidPatch | noElement
  | elementAlreadyExists => true
  | _ => false

end ErrorKind

/-- The wording of a patch fault. -/
def PatchFault.message : PatchFault → String
  | malformedPath path => "Invalid patch: Invalid path: " ++ path
  | wholeContract => "the whole contract cannot be patched"
  | missing path => path ++ " does not exist"
  | intoItself source => "cannot move " ++ source ++ " into itself"
  | testFailed path => "test failed at " ++ path
  | missingParent tokens =>
      "parent of /" ++ joinWith "/" tokens ++ " does not exist"
  | badIndex token => "invalid array index " ++ token
  | addToScalar token => "cannot add " ++ token ++ " to a scalar"
  | removeFromScalar token => "cannot remove " ++ token ++ " from a scalar"

namespace Error

/-- The kind of an error. -/
def kind : Error → ErrorKind
  | schemaNotObject _ | malformedSchema | badPattern | misplacedLinks _
  | viewWithoutSchema .. => .compile
  | limitNotPositive | limitOutOfRange .. => .invalidLimit
  | contractNotObject _ | contractWithoutType | malformedContract
  | mismatch _ | invalidUpdate | pathMissing .. => .schemaMismatch
  | slugUndefined => .invalidSlug
  | idUndefined => .invalidId
  | badVersion _ | noVersionReference _ => .invalidVersion
  | unknownType _ => .unknownType
  | malformedJson => .json
  | malformedPatch | badPointer _ | patchDoesNotApply .. => .invalidPatch
  | mayNotReplace _ | mayNotChange .. | patchedInvisible _ | mayNotWrite _ =>
      .permissions
  | badSession _ | sessionExpired _ | notInitialized => .invalidSession
  | malformedConfig | emptyTableName | sharedTable _ | maxLimitZero
  | defaultLimitOutOfRange _ => .config
  | noElement _ => .noElement
  | alreadyExists .. => .elementAlreadyExists
  | timedOut _ => .databaseTimeout
  | tableRefused => .engine
  | streamClosed | stopped | aborted => .database

/-- What a message says after its title; `none` where the title says it
    all. -/
def detail? : Error → Option String
  | schemaNotObject got =>
      some ("Malformed schema: expected an object or a boolean, got "
        ++ got.render)
  | malformedSchema => some "Malformed schema"
  | badPattern => some "invalid regular expression"
  | misplacedLinks keys =>
      some ("$$links is only allowed on contracts, found under /"
        ++ joinWith "/" keys)
  | viewWithoutSchema slug key index =>
      some ("View " ++ slug ++ " has no schema in " ++ key ++ "["
        ++ toString index ++ "]")
  | limitNotPositive => some "Query limit must be a positive integer"
  | limitOutOfRange most got =>
      some ("Query limit must be between 1 and " ++ toString most ++ ", got "
        ++ toString got)
  | contractNotObject got =>
      some ("Contract must be an object, got " ++ got.render)
  | contractWithoutType => some "No type in contract"
  | malformedContract => some "Invalid contract"
  | mismatch faults => some (joinWith "; " faults)
  | invalidUpdate => some "The updated contract is invalid"
  | slugUndefined => some "Slug is undefined"
  | idUndefined => some "Id is undefined"
  | badVersion text => some ("Invalid version: " ++ text)
  | noVersionReference reference =>
      some ("No version reference: " ++ reference)
  | unknownType reference => some reference
  | malformedJson => none
  | malformedPatch => some "Malformed patch"
  | badPointer path => some ("Invalid path: " ++ path)
  | pathMissing path slug =>
      some ("Path " ++ path ++ " does not exist in " ++ slug)
  | patchDoesNotApply slug fault =>
      some ("Patch does not apply to " ++ slug ++ ": " ++ fault.message)
  | mayNotReplace reference => some ("You may not replace " ++ reference)
  | mayNotChange key reference =>
      some ("You may not change '" ++ key ++ "' of " ++ reference)
  | patchedInvisible reference =>
      some ("The patched " ++ reference ++ " would not be visible to you")
  | mayNotWrite reference => some ("You may not write " ++ reference)
  | badSession id => some ("Invalid session: " ++ id)
  | sessionExpired id => some ("Session expired: " ++ id)
  | notInitialized => some "Kernel is not initialized"
  | malformedConfig => none
  | emptyTableName => some "Table names must not be empty"
  | sharedTable name =>
      some ("Contracts and links cannot share the table " ++ name)
  | maxLimitZero => some "max_limit must be positive"
  | defaultLimitOutOfRange most =>
      some ("default_limit must be between 1 and " ++ toString most)
  | noElement reference => some reference
  | alreadyExists reference id => some (reference ++ " (" ++ id ++ ")")
  | timedOut operation => some (operation ++ " timed out")
  | tableRefused => none
  | streamClosed => some "Stream is closed"
  | stopped => some "stopped"
  | aborted => some "aborted"

/-- The message of an error. -/
def message (e : Error) : String :=
  match e.detail? with
  | some detail => e.kind.title ++ ": " ++ detail
  | none => e.kind.title

/-- Whether an error is an answer rather than a fault. -/
def expected (e : Error) : Bool := e.kind.expected

end Error

end LinkedContracts
