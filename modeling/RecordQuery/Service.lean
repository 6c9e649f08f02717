import RecordQuery.Repository
import RecordQuery.Value.Wire

namespace RecordQuery

/-!
# The service

Requests for the customers and the answers to them. A browser's question
whether it may send a request is answered first. A rejected argument is
answered with what is wrong with it; whatever else goes wrong ends in an
answer that tells nothing, not even the identifier of the request. Its
settings say what the service is called, who may call it, and how it is
connected to its database.
-/

namespace Settings

def serviceName : Text := "listquery".toList

def standardOrigins : Text := "http://localhost:3000".toList

def standardDatabase : Text := "sqlite:///:memory:".toList

def origins (t : Text) : List Text :=
  ((Text.splitOn ',' t).map Text.trim).filter fun o ↦ !o.isEmpty

/-- A database that is gone with its last connection. -/
def isInMemory (url : Text) : Bool :=
  Text.hasPrefix "sqlite".toList url && Text.hasInfix ":memory:".toList url

/-- The names of the options of a database connection. A database in
memory is kept on one connection; others are tried before use. -/
def engineOptions (url : Text) : List Text :=
  if isInMemory url then ["connect_args".toList, "poolclass".toList] else ["pool_pre_ping".toList]

end Settings

inductive RequestId where
  | kept (t : Text)
  | generated
  deriving DecidableEq, Repr

namespace RequestId

def headerName : Text := "x-request-id".toList

def maxLength : Nat := 128

def isAllowed (c : Char) : Bool :=
  ('a' ≤ c && c ≤ 'z') || ('A' ≤ c && c ≤ 'Z') || ('0' ≤ c && c ≤ '9') ||
    c = '.' || c = '_' || c = '-'

/-- The identifier of a client is kept, without blanks around it, if it is
not too long and has only allowed characters. -/
def ofHeader (value : Option Text) : RequestId :=
  let t := Text.trim (value.getD [])
  if !t.isEmpty && t.length ≤ maxLength && t.all isAllowed then .kept t else .generated

def generatedLength : Nat := 32

end RequestId

structure Request where
  method : Text
  path : Text
  query : Text
  headers : List (Text × Text)

def Request.header? (r : Request) (name : Text) : Option Text :=
  (r.headers.find? fun h ↦ Text.basicLower h.1 = name).map Prod.snd

def Request.id (r : Request) : RequestId := .ofHeader (r.header? RequestId.headerName)

inductive Body where
  | object (v : Value)
  | text (t : Text)

structure Response where
  status : Nat
  body : Body
  requestId : Option RequestId
  fault : Option Fault

inductive Route where
  | landing
  | health
  | customers
  | customer (id : Text)
  deriving DecidableEq, Repr

namespace Route

/-- A path is taken as it is or with a line break at its end. -/
def isAt (path : String) (t : Text) : Bool := t = path.toList || t = path.toList ++ ['\n']

def after? : Text → Text → Option Text
  | [], t => some t
  | _, [] => none
  | a :: as, c :: cs => if a = c then after? as cs else none

def ofPath? (path : Text) : Option Route :=
  if isAt "/" path then some .landing
  else if isAt "/health" path then some .health
  else if isAt "/api/customers" path then some .customers
  else
    match after? "/api/customers/".toList path with
    | some id => if id.isEmpty || '/' ∈ id then none else some (.customer id)
    | none => none

/-- The path that a client is sent to instead: without the slashes at the
end, or with one if there is none. -/
def alternative (path : Text) : Text :=
  let shorter := Text.stripRight (· = '/') path
  if shorter.length < path.length then shorter else path ++ ['/']

end Route

/-- The query text as it is taken out of an address: up to the first
number sign, and without tabs and line breaks. -/
def Request.queryText (r : Request) : Text :=
  (r.query.takeWhile (· ≠ '#')).filter fun c ↦ c ≠ '\t' && c ≠ '\r' && c ≠ '\n'

namespace Service

def defaultSort : Text := "name".toList

def repository (engine : Engine) (rows : List Record) : Repository :=
  ⟨engine, Catalog.customers, rows, Registry.standard⟩

def detail (message : Text) : Body := .object (.object [("detail", .text message)])

def notFound : Nat × Body := (404, detail "Not Found".toList)

def recordNotFound : Nat × Body := (404, detail "Record not found".toList)

def customerSchema : Schema := Catalog.customers.schema

def listingObject (l : Listing Record) (pages : Int) : Value :=
  .object
    [("items", .list (l.items.map (Record.toForm customerSchema))),
      ("total_count", .int l.totalCount), ("page_number", .int l.pagination.number),
      ("page_size", .int l.pagination.size), ("page_count", .int pages),
      ("sort", .object [("by", .text l.sort.field), ("direction", .text l.sort.direction.name)])]

section

variable (engine : Engine) (rows : List Record)

def listRows (query : Text) : Outcome (Nat × Body) := do
  let l ← (repository engine rows).getMany query defaultSort
  return (200, .object (listingObject l (← l.pageCount)))

/-- The row of an identifier. What cannot be read as an identifier names no
row, and a row by itself has to have a form as a whole. -/
def getRow (id : Text) : Outcome (Nat × Body) :=
  match customerSchema.identifier? with
  | none => .ok recordNotFound
  | some key =>
    match Literal.read key.type id with
    | .ok (.int n) => do
      match ← (repository engine rows).get n with
      | some r =>
        if r.hasForm customerSchema then return (200, .object (r.toWire customerSchema))
        else .error .numberNotFinite
      | none => return recordNotFound
    | _ => .ok recordNotFound

def answerRoute (query : Text) : Route → Outcome (Nat × Body)
  | .landing =>
    .ok (200, .object (.object
      [("service", .text Settings.serviceName), ("status", .text "ok".toList)]))
  | .health => .ok (200, .object (.object [("status", .text "ok".toList)]))
  | .customers => listRows engine rows query
  | .customer id => getRow engine rows id

/-- Only reading is allowed. A path that would be known with or without a
slash at its end is answered with the other one. -/
def answer (r : Request) : Outcome (Nat × Body) :=
  match Route.ofPath? r.path with
  | some route =>
    if r.method = "GET".toList then answerRoute engine rows r.queryText route
    else .ok (405, detail "Method Not Allowed".toList)
  | none =>
    match Route.ofPath? (Route.alternative r.path) with
    | some _ => .ok (307, .text [])
    | none => .ok notFound

end

/-- The methods that pages of other origins may ask for. -/
def sharedMethods : List Text :=
  ["DELETE".toList, "GET".toList, "HEAD".toList, "OPTIONS".toList, "PATCH".toList, "POST".toList,
    "PUT".toList]

/-- What of a preflight is refused: the origin of the page, the method it is
going to use, or that it reaches into a private network. -/
def refusals (origin method : Text) (intoPrivate : Bool) : List Text :=
  (if origin ∈ Settings.origins Settings.standardOrigins then [] else ["origin".toList]) ++
    (if method ∈ sharedMethods then [] else ["method".toList]) ++
    (if intoPrivate then ["private-network".toList] else [])

def preflight (origin method : Text) (intoPrivate : Bool) : Nat × Body :=
  match refusals origin method intoPrivate with
  | [] => (200, .text "OK".toList)
  | reasons => (400, .text ("Disallowed CORS ".toList ++ Text.joinWith ", ".toList reasons))

def rejection (e : QueryError) : Body :=
  .object (.object [("detail", .text e.message), ("code", .text e.code.text),
    ("argument", .text e.argument)])

section

variable (engine : Engine) (rows : List Record)

/-- A preflight names the origin of a page and the method of the request it
stands for; it is answered whatever its path is. -/
def answerFirst (r : Request) : Outcome (Nat × Body) :=
  match r.header? "origin".toList, r.header? "access-control-request-method".toList with
  | some origin, some method =>
    if r.method = "OPTIONS".toList then
      let intoPrivate := (r.header? "access-control-request-private-network".toList).isSome
      .ok (preflight origin method intoPrivate)
    else answer engine rows r
  | _, _ => answer engine rows r

def respond (r : Request) : Response :=
  let id := r.id
  match answerFirst engine rows r with
  | .ok (status, body) => ⟨status, body, some id, none⟩
  | .error (.rejected e) => ⟨400, rejection e, some id, none⟩
  | .error f => ⟨500, .text "Internal Server Error".toList, none, some f⟩

end

end Service

end RecordQuery
