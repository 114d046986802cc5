import LinkedContracts.Kernel.Read

/-! # Feeds

    A feed reports how the contracts that match a query change.  It keeps
    the ids of the contracts it has reported as matching, so that it can
    report when one of them ceases to match.

    A change is classified by its images.  The links of an image are those
    shown on it; all others are read from the store. -/

namespace LinkedContracts

variable [TextLibrary]

/-- What a feed reports. -/
inductive FeedEvent where
  | insert (id : String) (contract : Json)
  | update (id : String) (contract : Json)
  | delete (id : String)
  | unmatch (id : String)
  | dataset (id : String) (contracts : List Json)
  | failed (error : Error)
  | closed

/-- The document of an event. -/
def FeedEvent.toJson : FeedEvent → Json
  | insert id c => .object
      [("contract", c), ("event", .string "insert"), ("id", .string id)]
  | update id c => .object
      [("contract", c), ("event", .string "update"), ("id", .string id)]
  | delete id => .object [("event", .string "delete"), ("id", .string id)]
  | unmatch id => .object [("event", .string "unmatch"), ("id", .string id)]
  | dataset id cs => .object
      [("contracts", .array cs), ("event", .string "dataset"),
       ("id", .string id)]
  | failed e => .object
      [("event", .string "error"), ("message", .string e.message)]
  | closed => .object [("event", .string "closed")]

/-- What a feed is asked to do. -/
inductive FeedRequest where
  | change (change : Change)
  /-- Answer a query under the mask of the feed. -/
  | query (id : String) (schema : Schema) (options : QueryOptions)
  /-- Follow another query. -/
  | follow (schema : Schema) (options : QueryOptions)
  | close

/-- A feed. -/
structure Feed where
  mask : Schema
  query : Query
  /-- The contracts reported as matching. -/
  matched : List String := []
  isClosed : Bool := false

namespace Feed

/-- Open a feed for a session. -/
def start (k : Kernel) (session : String) (query : Json)
    (options : QueryOptions) : Except Error Feed := do
  let mask ← k.mask session
  let schema ← Schema.ofQuery query
  let q ← Query.compileMasked k.settings mask schema none options
  return { mask := mask, query := q }

/-- What a feed shows of an image, if the image matches. -/
def shown (f : Feed) (k : Kernel) (image : Json) : Except Error (Option Json) :=
  f.query.evaluate image (LinkSource.ofImage image k.linkSource)

/-- Whether the contract of a change matched before it. -/
def matchedBefore (f : Feed) (k : Kernel) (c : Change) : Except Error Bool :=
  if c.id ∈ f.matched then .ok true
  else match c.before with
    | some image => (f.shown k image).map Option.isSome
    | none => .ok false

/-- Keep a contract as matching. -/
def add (f : Feed) (id : String) : Feed :=
  if id ∈ f.matched then f else { f with matched := f.matched ++ [id] }

/-- Keep a contract as not matching. -/
def remove (f : Feed) (id : String) : Feed :=
  { f with matched := f.matched.filter (· != id) }

/-- The event of a change that leaves a matching contract. -/
def matchEvent (c : Change) (contract : Json) : FeedEvent :=
  if c.kind = .insert then .insert c.id contract else .update c.id contract

/-- Classify a change, given whether the contract matched before. -/
def classifyAfter (f : Feed) (k : Kernel) (c : Change) (before : Bool) :
    Except Error (Option FeedEvent × Feed) :=
  if c.kind = .delete then
    .ok (if before then some (.delete c.id) else none, f.remove c.id)
  else match c.after with
    | none => .ok (none, f)
    | some image => do
        match ← f.shown k image with
        | some contract =>
            return (some (matchEvent c (Mask.redact contract f.mask)), f.add c.id)
        | none =>
            if before then return (some (.unmatch c.id), f.remove c.id)
            else return (none, f)

/-- Classify a change. -/
def classify (f : Feed) (k : Kernel) (c : Change) :
    Except Error (Option FeedEvent × Feed) := do
  f.classifyAfter k c (← f.matchedBefore k c)

/-- The ids of the contracts of rows. -/
def idsOf (rows : List Json) : List String :=
  rows.filterMap fun row => row.stringField? "id"

/-- Answer a query. -/
def answer (f : Feed) (k : Kernel) (id : String) (schema : Schema)
    (options : QueryOptions) : Except Error (FeedEvent × Feed) := do
  let q ← Query.compileMasked k.settings f.mask schema none options
  let rows ← k.run q
  let contracts := rows.map fun row => Mask.redact (q.reshape row) f.mask
  return (.dataset id contracts, (idsOf rows).foldl add f)

/-- Follow another query.  What was reported under the old one is
    forgotten. -/
def follow (f : Feed) (k : Kernel) (schema : Schema) (options : QueryOptions) :
    Except Error Feed := do
  let q ← Query.compileMasked k.settings f.mask schema none options
  return { f with query := q, matched := [] }

/-- Do what a feed is asked to.  A request that fails is reported and
    changes nothing. -/
def handle (f : Feed) (k : Kernel) : FeedRequest → Option FeedEvent × Feed
  | .change c =>
      match f.classify k c with
      | .ok result => result
      | .error e => (some (.failed e), f)
  | .query id schema options =>
      match f.answer k id schema options with
      | .ok (event, f) => (some event, f)
      | .error e => (some (.failed e), f)
  | .follow schema options =>
      match f.follow k schema options with
      | .ok f => (none, f)
      | .error e => (some (.failed e), f)
  | .close => (some .closed, { f with isClosed := true })

/-- Check that a feed is open, and read the query it is sent. -/
def accept (f : Feed) (query : Json) : Except Error Schema := do
  let schema ← Schema.ofQuery query
  if f.isClosed then .error .streamClosed else return schema

end Feed

end LinkedContracts
