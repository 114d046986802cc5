import LinkedContracts.Json

/-! # Built-in contracts

    The types every store starts with, and the administrator: a user, the
    role that lets it read everything, and its session.  All are partial
    definitions. -/

namespace LinkedContracts

namespace Builtin

/-! ## Pieces of schemas -/

/-- A schema of one type with further keywords. -/
def typed (type : String) (keywords : List (String × Json)) : Json :=
  .ofPairs (("type", .string type) :: keywords)

/-- The schema of any value of a type. -/
def any (type : String) : Json := typed type []

/-- The schema of strings that match a pattern. -/
def matching (pattern : String) : Json :=
  typed "string" [("pattern", .string pattern)]

/-- The schema of strings of a format. -/
def formatted (format : String) : Json :=
  typed "string" [("format", .string format)]

/-- The schema of arrays of items. -/
def listOf (items : Json) : Json := typed "array" [("items", items)]

/-- The schema of objects with properties. -/
def objectWith (properties : List (String × Json)) : Json :=
  typed "object" [("properties", .ofPairs properties)]

/-- The schema of objects with properties, some of which have to be
    there. -/
def record (properties : List (String × Json)) (required : List String) :
    Json :=
  typed "object"
    [("properties", .ofPairs properties), ("required", .ofStrings required)]

/-- A partial definition. -/
def definition (slug type : String) (more : List (String × Json)) : Json :=
  .ofPairs (("slug", .string slug) :: ("type", .string type) :: more)

/-- The definition of a type. -/
def typeDefinition (slug name : String) (schema : Json) : Json :=
  definition slug "type@1.0.0"
    [("name", .string name), ("data", .object [("schema", schema)])]

/-! ## Types -/

/-- The type of types. -/
def typeType : Json :=
  typeDefinition "type" "Contract type" <|
    record
      [("slug", matching "^[a-z0-9-]+$"),
       ("type", typed "string" [("enum", .ofStrings ["type", "type@1.0.0"])]),
       ("data", record
         [("schema", any "object"),
          ("uiSchema", any "object"),
          ("indexed_fields", listOf (listOf (any "string")))]
         ["schema"])]
      ["slug", "type", "data"]

/-- The type of sessions. -/
def session : Json :=
  typeDefinition "session" "Session" <|
    record
      [("data", record
         [("actor", formatted "uuid"),
          ("expiration", formatted "date-time"),
          ("scope", any "object"),
          ("token", objectWith [("authentication", any "string")])]
         ["actor"])]
      ["data"]

/-- The type of users. -/
def user : Json :=
  typeDefinition "user" "User" <|
    record
      [("slug", matching "^user-[a-zA-Z0-9-]+$"),
       ("data", record
         [("email", .object
            [("anyOf", .array
              [formatted "email", listOf (formatted "email")])]),
          ("hash", any "string"),
          ("roles", listOf (matching "^[a-z0-9-]+$"))]
         ["roles"])]
      ["slug", "data"]

/-- The type of roles. -/
def role : Json :=
  typeDefinition "role" "Role" <|
    record
      [("slug", matching "^role-[a-z0-9-]+$"),
       ("data", record
         [("read", .object [("type", .ofStrings ["object", "boolean"])])]
         ["read"])]
      ["slug", "data"]

/-- The type of contracts without further rules. -/
def card : Json :=
  typeDefinition "card" "Card" (objectWith [("data", any "object")])

/-- The type of organisations. -/
def org : Json :=
  typeDefinition "org" "Organisation" <|
    record
      [("markers", listOf (matching "^[a-zA-Z0-9-_/:+]+$")),
       ("name", typed "string" [("fullTextSearch", .bool true)]),
       ("data", objectWith
         [("profile", objectWith [("description", any "string")])])]
      ["name"]

/-- The schema of the branches of a view. -/
def viewBranches : Json :=
  listOf (record [("name", any "string"), ("schema", any "object")]
    ["name", "schema"])

/-- The type of views. -/
def view : Json :=
  typeDefinition "view" "View" <|
    record
      [("data", objectWith
         [("schema", any "object"),
          ("allOf", viewBranches),
          ("anyOf", viewBranches),
          ("types", listOf (any "string"))])]
      ["data"]

/-- The schema of the ends of a link. -/
def endpoint : Json :=
  record [("id", formatted "uuid"), ("type", matching "^[a-z0-9-]+@[0-9.]+$")]
    ["id", "type"]

/-- The type of links. -/
def link : Json :=
  typeDefinition "link" "Link" <|
    record
      [("name", any "string"),
       ("data", record
         [("inverseName", any "string"), ("from", endpoint), ("to", endpoint)]
         ["inverseName", "from", "to"])]
      ["name", "data"]

/-- The types everything else relies on. -/
def coreTypes : List Json := [typeType, session, user, role]

/-- The other types. -/
def extraTypes : List Json := [card, org, view, link]

/-! ## The administrator -/

/-- The slug of the administrator. -/
def adminSlug : String := "user-admin"

/-- The slug of the administrator's session. -/
def adminSessionSlug : String := "session-admin-kernel"

/-- The role of the administrator: everything may be read. -/
def adminRole : Json :=
  definition "role-user-admin" "role@1.0.0"
    [("name", .string "Admin role permissions"),
     ("data", .object
       [("read", typed "object" [("additionalProperties", .bool true)])])]

/-- The administrator. -/
def admin : Json :=
  definition adminSlug "user@1.0.0"
    [("name", .string "Admin"),
     ("data", .ofPairs
       [("email", .string "admin@example.com"),
        ("hash", .string "PASSWORDLESS"),
        ("roles", .array [])])]

/-- A session of the administrator. -/
def adminSession (actor : String) : Json :=
  definition adminSessionSlug "session@1.0.0"
    [("data", .object [("actor", .string actor)])]

end Builtin

end LinkedContracts
