import VersionStore.Config
import VersionStore.Engine.Mapping
import VersionStore.Engine.Request
import VersionStore.Engine.Wildcard
import VersionStore.Http.Envelope
import VersionStore.Http.Message
import VersionStore.Query.Dsl

/-! A search engine behind HTTP.

The client turns each request of a store into requests to a server and reads its
responses. A name travels as one segment of a path, so it reaches no other place on the
server. Before the first document is added to an index the client makes the index, with
the mapping of records: an engine left to guess would cut identifiers into words, and
exact matches would fail. The client remembers which indices it has made. -/
namespace VersionStore

/-- A server: how it responds to a request. Without a response the connection has failed. -/
abbrev HttpServer (σ : Type) := HttpRequest → σ → Option HttpResponse × σ

/-- A way to send requests: what becomes of each, a response or a failure. -/
abbrev HttpTransport (σ : Type) := HttpRequest → σ → Result HttpResponse × σ

/-- A client of a search engine. -/
structure HttpClient where
  config : BackendConfig
  base : Url
  /-- The indices known to have the mapping of records. -/
  mapped : List String := []

namespace HttpClient

def make (config : BackendConfig) : Result HttpClient :=
  match config.validate with
  | .error e => .error (.config e)
  | .ok _ =>
    match Url.parse config.trimmedUrl with
    | .error e => .error (.config (.invalid "base_url" config.baseUrl e.message))
    | .ok base => .ok {config := config, base := base}

/-- The credentials of the base URL, then those of the settings. -/
def authorization (client : HttpClient) : List String :=
  (client.base.credentials?.map fun (user, password) => basicCredentials user password).toList ++
    (client.config.username.map fun user =>
      basicCredentials user.toList (client.config.password.getD "").toList).toList

/-- The URL of names below the base, without the credentials that a request shows anyhow. -/
def url (client : HttpClient) (names : List String) : Url :=
  (if client.base.credentials?.isSome then client.base.withoutUser else client.base).below names

def request (client : HttpClient) (method : HttpMethod) (url : Url)
    (body : Option Json.Value) : HttpRequest :=
  ⟨method, url, client.authorization, body⟩

/-- The error of a request that came to nothing; `failure` says how. -/
def unsent (failure : String) (request : HttpRequest) : Error :=
  Error.unavailable
    ("request failed: " ++ failure ++ " for url (" ++ request.url.text ++ ")")

/-- What is said of a response that is no success. -/
def refusal (operation : String) (response : HttpResponse) : String :=
  operation ++ " returned " ++ statusText response.status ++ ": " ++ response.body

variable {σ : Type}

/-- Sends a request to a server. It fails without the server if its URL cannot be asked for, and
with it if there is no answer. -/
def send (server : HttpServer σ) : HttpTransport σ := fun request s =>
  if !request.url.canBeAsked then (.error (unsent "builder error" request), s)
  else
    match server request s with
    | (some response, s) =>
      if response.isFinal then (.ok response, s)
      else (.error (unsent "error sending request" request), s)
    | (none, s) => (.error (unsent "error sending request" request), s)

def ask {α : Type} (send : HttpTransport σ) (request : HttpRequest)
    (read : HttpResponse → Result α) (s : σ) : Result α × σ :=
  let (response, s) := send request s
  (response.bind read, s)

/-- Notes that an index has the mapping of records. -/
def map (client : HttpClient) (index : String) : HttpClient :=
  {client with
    mapped := if client.mapped.contains index then client.mapped else index :: client.mapped}

/-- Forgets the indices that match a pattern. -/
def unmap (client : HttpClient) (pattern : String) : HttpClient :=
  {client with mapped := client.mapped.filter (!wildcardMatches pattern ·)}

/-- Whether a response says that an index is there now: it was made, or there was one. -/
def accepts (response : HttpResponse) : Bool :=
  response.isSuccess ||
    (response.status == 400 &&
      Text.occursIn "resource_already_exists_exception".toList response.body.toList)

/-- Whether a response says that nothing is left to remove. -/
def removes (response : HttpResponse) : Bool := response.isSuccess || response.status == 404

def creation (client : HttpClient) (index : String) : HttpRequest :=
  client.request .put (client.url [index]) (some recordMapping)

/-- What a response to the making of an index says. -/
def readCreation (index : String) (response : HttpResponse) : Result Unit :=
  if accepts response then .ok ()
  else .error (.storage (.index index (refusal "create index" response)))

def create (send : HttpTransport σ) (index : String) (client : HttpClient) (s : σ) :
    Result Unit × HttpClient × σ :=
  let (answer, s) := ask send (client.creation index) (readCreation index) s
  (answer, if answer.isOk then client.map index else client, s)

def addition (client : HttpClient) (index : String) (document : Json.Value) : HttpRequest :=
  let url := client.url [index, "_doc"]
  client.request .post (if client.config.refresh then url.withField "refresh" "wait_for" else url)
    (some document)

/-- What a response to the adding of a document says. -/
def readAddition (response : HttpResponse) : Result Unit :=
  if response.isSuccess then .ok () else .error (Error.unavailable (refusal "index" response))

/-- Adds a document to an index that has the mapping of records. -/
def add (send : HttpTransport σ) (index : String) (document : Json.Value) (client : HttpClient)
    (s : σ) : Result Unit × HttpClient × σ :=
  let (answer, s) := ask send (client.addition index document) readAddition s
  (answer, client, s)

/-- Adds a document to an index; the index is made first unless it is known to be mapped. -/
def index (send : HttpTransport σ) (index : String) (document : Json.Value) (client : HttpClient)
    (s : σ) : Result Unit × HttpClient × σ :=
  if client.mapped.contains index then client.add send index document s
  else
    match client.create send index s with
    | (.ok _, client, s) => client.add send index document s
    | failed => failed

/-- What a response to a search says. An index that is missing holds nothing. -/
def readDocuments (response : HttpResponse) : Result (List Json.Value) :=
  if response.status = 404 then .ok []
  else if response.isSuccess then
    match (Json.Tree.parse? response.body.toList).bind Envelope.documents? with
    | some documents => .ok documents
    | none =>
      .error (Error.unavailable "malformed search response: error decoding response body")
  else .error (Error.unavailable (refusal "search" response))

def searching (client : HttpClient) (index : String) (query : Query) : HttpRequest :=
  client.request .post (client.url [index, "_search"]) (some query.toDsl)

def search (send : HttpTransport σ) (index : String) (query : Query) (client : HttpClient) (s : σ) :
    Result (List Json.Value) × HttpClient × σ :=
  let (answer, s) := ask send (client.searching index query) readDocuments s
  (answer, client, s)

def removal (client : HttpClient) (pattern : String) : HttpRequest :=
  client.request .delete
    (((client.url [pattern]).withField "ignore_unavailable" "true").withField
      "allow_no_indices" "true") none

/-- What a response to a removal says. That there was nothing to remove is no error. -/
def readRemoval (pattern : String) (response : HttpResponse) : Result Unit :=
  if removes response then .ok ()
  else .error (.storage (.index pattern (refusal "delete indices" response)))

def delete (send : HttpTransport σ) (pattern : String) (client : HttpClient) (s : σ) :
    Result Unit × HttpClient × σ :=
  let (answer, s) := ask send (client.removal pattern) (readRemoval pattern) s
  (answer, if answer.isOk then client.unmap pattern else client, s)

/-- What a response to a listing says. -/
def readNames (response : HttpResponse) : Result (List String) :=
  if response.isSuccess then
    match (Json.Tree.parse? response.body.toList).bind Envelope.indexNames? with
    | some names => .ok names
    | none => .error (Error.unavailable "malformed index listing: error decoding response body")
  else .error (Error.unavailable (refusal "list indices" response))

def listing (client : HttpClient) : HttpRequest :=
  client.request .get
    (((client.url ["_cat", "indices"]).withField "format" "json").withField "h" "index") none

def list (send : HttpTransport σ) (client : HttpClient) (s : σ) :
    Result (List String) × HttpClient × σ :=
  let (answer, s) := ask send client.listing readNames s
  (answer, client, s)

/-- Serves a request of a store, by some way to send requests. -/
def serveBy (send : HttpTransport σ) (client : HttpClient) (s : σ) :
    (request : Request) → Result request.Answer × HttpClient × σ
  | .index index _ _ document => client.index send index document s
  | .search index query => client.search send index query s
  | .createIndex index => client.create send index s
  | .deleteIndices pattern => client.delete send pattern s
  | .listIndices => client.list send s

def serve (server : HttpServer σ) (client : HttpClient) (s : σ) :
    (request : Request) → Result request.Answer × HttpClient × σ :=
  client.serveBy (send server) s

end HttpClient

end VersionStore
