import VersionStore.Http.Client

/-! Which indices a client knows to be mapped.

A client writes a document to an index only if it takes the index to be mapped. It decides
that from the responses to its own requests, whatever these are: an index becomes mapped
when a request that makes it is accepted, and is no longer mapped once an accepted removal
has a pattern that matches it.

To say so, a session keeps a log of what was sent and of what came back. An exchange bears
the call that it was sent for, for two names that differ in dropped characters share a URL.
The main result is `mapped_exactly`. -/
namespace VersionStore

/-- The index that a call makes, or makes if need be. -/
def Request.makes? : Request → Option String
  | .index name _ _ _ | .createIndex name => some name
  | _ => none

/-- A request that was sent for a call, and what became of it. -/
structure Exchange where
  call : Request
  request : HttpRequest
  outcome : Result HttpResponse

namespace HttpClient

/-- The requests that a client may send for a call. -/
def requests (client : HttpClient) : Request → List HttpRequest
  | .index index _ _ document => [client.creation index, client.addition index document]
  | .search index query => [client.searching index query]
  | .createIndex index => [client.creation index]
  | .deleteIndices pattern => [client.removal pattern]
  | .listIndices => [client.listing]

/-- What a client sends does not depend on what it knows. -/
theorem requests_congr {a b : HttpClient} (hconfig : a.config = b.config)
    (hbase : a.base = b.base) : a.requests = b.requests := by
  obtain ⟨config, base, mapped⟩ := a
  obtain ⟨config', base', mapped'⟩ := b
  obtain rfl : config = config' := hconfig
  obtain rfl : base = base' := hbase
  funext call
  cases call <;> rfl

theorem url_congr {a b : HttpClient} (hbase : a.base = b.base) : a.url = b.url := by
  funext names
  rw [url, url, hbase]

theorem mem_map {client : HttpClient} {index name : String} :
    name ∈ (client.map index).mapped ↔ name = index ∨ name ∈ client.mapped := by
  unfold map
  by_cases h : client.mapped.contains index
  · rw [if_pos h]
    refine ⟨.inr, ?_⟩
    rintro (rfl | hmem)
    · exact List.contains_iff_mem.mp h
    · exact hmem
  · rw [if_neg h, List.mem_cons]

theorem mem_unmap {client : HttpClient} {pattern name : String} :
    name ∈ (client.unmap pattern).mapped ↔
      name ∈ client.mapped ∧ wildcardMatches pattern name = false := by
  simp [unmap]

/-- Whether an index is there now: a response says that it was made, or that there was one. -/
def created (outcome : Result HttpResponse) : Bool := outcome.toOption.any accepts

def added (outcome : Result HttpResponse) : Bool := outcome.toOption.any (·.isSuccess)

/-- Whether nothing is left of what was to be removed. -/
def removed (outcome : Result HttpResponse) : Bool := outcome.toOption.any removes

theorem isOk_readCreation (index : String) (outcome : Result HttpResponse) :
    (outcome.bind (readCreation index)).isOk = created outcome := by
  cases outcome with
  | error => rfl
  | ok response =>
    show (readCreation index response).isOk = accepts response
    unfold readCreation
    cases accepts response <;> rfl

theorem isOk_readAddition (outcome : Result HttpResponse) :
    (outcome.bind readAddition).isOk = added outcome := by
  cases outcome with
  | error => rfl
  | ok response =>
    show (readAddition response).isOk = response.isSuccess
    unfold readAddition
    cases response.isSuccess <;> rfl

theorem isOk_readRemoval (pattern : String) (outcome : Result HttpResponse) :
    (outcome.bind (readRemoval pattern)).isOk = removed outcome := by
  cases outcome with
  | error => rfl
  | ok response =>
    show (readRemoval pattern response).isOk = removes response
    unfold readRemoval
    cases removes response <;> rfl

section
variable {σ : Type} {send : HttpTransport σ} {client : HttpClient} {name : String}
  {document : Json.Value} {s : σ}

theorem index_of_mem (h : name ∈ client.mapped) :
    client.index send name document s = client.add send name document s := by
  rw [index, if_pos (List.contains_iff_mem.mpr h)]

/-- An index that is not known to be mapped is made first, and nothing follows if that fails. -/
theorem index_of_not_mem (h : name ∉ client.mapped) :
    client.index send name document s =
      if (client.create send name s).1.isOk then
        (client.create send name s).2.1.add send name document (client.create send name s).2.2
      else client.create send name s := by
  rw [index, if_neg (mt List.contains_iff_mem.mp h)]
  rcases client.create send name s with ⟨e | done, later, s'⟩ <;> rfl

end

end HttpClient

/-! ### What a log says -/

namespace Exchange

/-- Whether an index was made with the mapping of records, or found to be there. -/
def Makes (e : Exchange) (client : HttpClient) (index : String) : Prop :=
  e.call.makes? = some index ∧ e.request.method = .put ∧ e.request.url = client.url [index] ∧
    e.request.body = some recordMapping ∧ HttpClient.created e.outcome = true

/-- Whether all indices were removed that match a pattern, and one of them is such. -/
def Removes (e : Exchange) (index : String) : Prop :=
  e.request.method = .delete ∧ HttpClient.removed e.outcome = true ∧
    ∃ pattern, e.call = .deleteIndices pattern ∧ wildcardMatches pattern index = true

/-- Whether a document was sent to an index. -/
def Adds (e : Exchange) (client : HttpClient) (index : String) (document : Json.Value) : Prop :=
  let url := client.url [index, "_doc"]
  (∃ classification identifier, e.call = .index index classification identifier document) ∧
    e.request.method = .post ∧ e.request.body = some document ∧
    e.request.url = if client.config.refresh then url.withField "refresh" "wait_for" else url

/-- What is posted for a document is that document, to its index. -/
theorem adds_of_mem {client : HttpClient} {e : Exchange}
    {index classification identifier : String} {document : Json.Value}
    (hcall : e.call = .index index classification identifier document)
    (hrequest : e.request ∈ client.requests e.call) (hmethod : e.request.method = .post) :
    e.Adds client index document := by
  rw [hcall] at hrequest
  rcases List.mem_cons.mp hrequest with hput | hpost
  · rw [hput] at hmethod
    cases hmethod
  · have hpost : e.request = client.addition index document := List.mem_singleton.mp hpost
    exact ⟨⟨_, _, hcall⟩, hmethod, by rw [hpost]; rfl, by rw [hpost]; rfl⟩

end Exchange

/-- Whether a log says that an index is mapped: it was made, and not removed since. -/
def Knows (client : HttpClient) (log : List Exchange) (index : String) : Prop :=
  ∃ before e after, log = before ++ e :: after ∧ e.Makes client index ∧
    ∀ later ∈ after, ¬later.Removes index

/-- Whatever stands in a list with one more item stands in front of that item, or is it. -/
theorem eq_append_cons_cases {α : Type} {before after log : List α} {e last : α}
    (h : log ++ [last] = before ++ e :: after) :
    (before = log ∧ e = last ∧ after = []) ∨
      ∃ rest, after = rest ++ [last] ∧ log = before ++ e :: rest := by
  rcases List.eq_nil_or_concat after with rfl | ⟨rest, other, rfl⟩
  · obtain ⟨rfl, hlast⟩ := List.append_inj' h rfl
    exact .inl ⟨rfl, (List.cons.inj hlast).1.symm, rfl⟩
  · right
    rw [List.concat_eq_append] at h ⊢
    have h : log ++ [last] = (before ++ e :: rest) ++ [other] := by simpa using h
    obtain ⟨rfl, hlast⟩ := List.append_inj' h rfl
    exact ⟨rest, by rw [(List.cons.inj hlast).1], rfl⟩

/-- What a log says after one more exchange. -/
theorem knows_append {client : HttpClient} {log : List Exchange} {e : Exchange} {index : String} :
    Knows client (log ++ [e]) index ↔
      e.Makes client index ∨ Knows client log index ∧ ¬e.Removes index := by
  constructor
  · rintro ⟨before, made, after, hlog, hmakes, hkept⟩
    rcases eq_append_cons_cases hlog with ⟨-, rfl, -⟩ | ⟨rest, rfl, rfl⟩
    · exact .inl hmakes
    · refine .inr ⟨⟨before, made, rest, rfl, hmakes, fun later hlater => ?_⟩, ?_⟩
      · exact hkept later (List.mem_append_left _ hlater)
      · exact hkept e (List.mem_append_right _ List.mem_cons_self)
  · rintro (hmakes | ⟨⟨before, made, after, rfl, hmakes, hkept⟩, hremoves⟩)
    · exact ⟨log, e, [], rfl, hmakes, fun _ hlater => absurd hlater List.not_mem_nil⟩
    · refine ⟨before, made, after ++ [e], by simp, hmakes, fun later hlater => ?_⟩
      rcases List.mem_append.mp hlater with hlater | hlater
      · exact hkept later hlater
      · rwa [List.mem_singleton.mp hlater]

/-! ### Sessions -/

/-- A client, what it reaches, and all exchanges so far. Copies of a client share what they know,
so the calls of all of them are calls of one session. -/
structure HttpSession (σ : Type) where
  client : HttpClient
  state : σ
  log : List Exchange := []

namespace HttpSession

variable {σ : Type}

def new (config : BackendConfig) (base : Url) (s : σ) : HttpSession σ :=
  ⟨{config := config, base := base}, s, []⟩

/-- Sends a request for a call, and writes down what becomes of it. -/
def logged (send : HttpTransport σ) (call : Request) : HttpTransport (σ × List Exchange) :=
  fun request (s, log) =>
    let (outcome, s) := send request s
    (outcome, s, log ++ [⟨call, request, outcome⟩])

def serve (send : HttpTransport σ) (session : HttpSession σ) (call : Request) :
    Result call.Answer × HttpSession σ :=
  let (answer, client, s, log) :=
    session.client.serveBy (logged send call) (session.state, session.log) call
  (answer, ⟨client, s, log⟩)

def run (send : HttpTransport σ) (session : HttpSession σ) : List Request → HttpSession σ
  | [] => session
  | call :: rest => run send (session.serve send call).2 rest

/-- Writing things down makes no difference to a call. -/
theorem serve_eq (send : HttpTransport σ) (session : HttpSession σ) (call : Request) :
    ((session.serve send call).1, (session.serve send call).2.client,
      (session.serve send call).2.state) = session.client.serveBy send session.state call := by
  obtain ⟨client, s, log⟩ := session
  cases call with
  | index name classification identifier document =>
    let call : Request := .index name classification identifier document
    show ((client.index (logged send call) name document (s, log)).1,
      (client.index (logged send call) name document (s, log)).2.1,
      (client.index (logged send call) name document (s, log)).2.2.1) =
        client.index send name document s
    by_cases hmapped : name ∈ client.mapped
    · rw [HttpClient.index_of_mem hmapped, HttpClient.index_of_mem hmapped]
      rfl
    · rw [HttpClient.index_of_not_mem hmapped, HttpClient.index_of_not_mem hmapped]
      have hanswer : (client.create (logged send call) name (s, log)).1 =
          (client.create send name s).1 := rfl
      rw [hanswer]
      cases (client.create send name s).1.isOk <;> rfl
  | _ => rfl

/-- The session after a call that has sent some requests. -/
def sent (session : HttpSession σ) (call : Request)
    (exchanges : List (HttpRequest × Result HttpResponse)) (client : HttpClient) (s : σ) :
    HttpSession σ :=
  ⟨client, s, session.log ++ exchanges.map fun (request, outcome) => ⟨call, request, outcome⟩⟩

/-- What a call sends, and what the client makes of the outcome. -/
inductive Serves (session : HttpSession σ) :
    (call : Request) → Result call.Answer × HttpSession σ → Prop
  | adds {index classification identifier : String} {document : Json.Value}
    (hmapped : index ∈ session.client.mapped) (s : σ) (post : Result HttpResponse)
    {answer : Result Unit} (hanswer : answer.isOk = HttpClient.added post) :
    Serves session (.index index classification identifier document)
      (answer, session.sent (.index index classification identifier document)
        [(session.client.addition index document, post)] session.client s)
  | refuses {index classification identifier : String} {document : Json.Value}
    (hmapped : index ∉ session.client.mapped) (s : σ) {put : Result HttpResponse}
    (hput : HttpClient.created put = false) (e : Error) :
    Serves session (.index index classification identifier document)
      (.error e, session.sent (.index index classification identifier document)
        [(session.client.creation index, put)] session.client s)
  | makes {index classification identifier : String} {document : Json.Value}
    (hmapped : index ∉ session.client.mapped) (s : σ) {put : Result HttpResponse}
    (hput : HttpClient.created put = true) (post : Result HttpResponse) {answer : Result Unit}
    (hanswer : answer.isOk = HttpClient.added post) :
    Serves session (.index index classification identifier document)
      (answer, session.sent (.index index classification identifier document)
        [(session.client.creation index, put), (session.client.addition index document, post)]
        (session.client.map index) s)
  | creates {index : String} (s : σ) (put : Result HttpResponse) {answer : Result Unit}
    (hanswer : answer.isOk = HttpClient.created put) :
    Serves session (.createIndex index)
      (answer, session.sent (.createIndex index) [(session.client.creation index, put)]
        (if HttpClient.created put then session.client.map index else session.client) s)
  | removes {pattern : String} (s : σ) (outcome : Result HttpResponse) {answer : Result Unit}
    (hanswer : answer.isOk = HttpClient.removed outcome) :
    Serves session (.deleteIndices pattern)
      (answer, session.sent (.deleteIndices pattern) [(session.client.removal pattern, outcome)]
        (if HttpClient.removed outcome then session.client.unmap pattern else session.client) s)
  | searches {index : String} {query : Query} (s : σ) (outcome : Result HttpResponse)
    (answer : Result (List Json.Value)) :
    Serves session (.search index query)
      (answer, session.sent (.search index query) [(session.client.searching index query, outcome)]
        session.client s)
  | lists (s : σ) (outcome : Result HttpResponse) (answer : Result (List String)) :
    Serves session .listIndices
      (answer, session.sent .listIndices [(session.client.listing, outcome)] session.client s)

theorem serves (send : HttpTransport σ) (session : HttpSession σ) (call : Request) :
    session.Serves call (session.serve send call) := by
  obtain ⟨client, s, log⟩ := session
  cases call with
  | search index query => exact .searches ..
  | listIndices => exact .lists ..
  | createIndex index =>
    have hanswer := HttpClient.isOk_readCreation index (send (client.creation index) s).1
    have hserves : (⟨client, s, log⟩ : HttpSession σ).Serves (.createIndex index) _ :=
      .creates (send (client.creation index) s).2 (send (client.creation index) s).1 hanswer
    rw [← hanswer] at hserves
    exact hserves
  | deleteIndices pattern =>
    have hanswer := HttpClient.isOk_readRemoval pattern (send (client.removal pattern) s).1
    have hserves : (⟨client, s, log⟩ : HttpSession σ).Serves (.deleteIndices pattern) _ :=
      .removes (send (client.removal pattern) s).2 (send (client.removal pattern) s).1 hanswer
    rw [← hanswer] at hserves
    exact hserves
  | index index classification identifier document =>
    let call : Request := .index index classification identifier document
    show (⟨client, s, log⟩ : HttpSession σ).Serves call
      ((client.index (logged send call) index document (s, log)).1,
        ⟨(client.index (logged send call) index document (s, log)).2.1,
          (client.index (logged send call) index document (s, log)).2.2.1,
          (client.index (logged send call) index document (s, log)).2.2.2⟩)
    by_cases hmapped : index ∈ client.mapped
    · rw [HttpClient.index_of_mem hmapped]
      exact .adds hmapped _ _ (HttpClient.isOk_readAddition _)
    · rw [HttpClient.index_of_not_mem hmapped]
      have hanswer := HttpClient.isOk_readCreation index (send (client.creation index) s).1
      have hcreate : client.create (logged send call) index (s, log) =
          ((send (client.creation index) s).1.bind (HttpClient.readCreation index),
            if ((send (client.creation index) s).1.bind (HttpClient.readCreation index)).isOk then
              client.map index else client,
            (send (client.creation index) s).2,
            log ++ [⟨call, client.creation index, (send (client.creation index) s).1⟩]) := rfl
      rw [hcreate]
      cases hput : (send (client.creation index) s).1.bind (HttpClient.readCreation index) with
      | error e =>
        rw [hput] at hanswer
        exact .refuses hmapped _ hanswer.symm e
      | ok =>
        rw [hput] at hanswer
        let put := send (client.creation index) s
        let post := send (client.addition index document) put.2
        show (⟨client, s, log⟩ : HttpSession σ).Serves call
          (post.1.bind HttpClient.readAddition, ⟨client.map index, post.2,
            log ++ [⟨call, client.creation index, put.1⟩] ++
              [⟨call, client.addition index document, post.1⟩]⟩)
        rw [List.append_assoc]
        exact .makes hmapped _ hanswer.symm _ (HttpClient.isOk_readAddition _)

/-- Whether a client knows what the log says, and has sent nothing but what its calls ask for: what
was posted for a document is that document, and the log said that its index was mapped. -/
structure Consistent (initial client : HttpClient) (log : List Exchange) : Prop where
  config : client.config = initial.config
  base : client.base = initial.base
  mapped : ∀ index, index ∈ client.mapped ↔ Knows initial log index
  sent : ∀ before e after, log = before ++ e :: after →
    e.request ∈ initial.requests e.call ∧ ∀ index classification identifier document,
      e.call = .index index classification identifier document → e.request.method = .post →
        e.Adds initial index document ∧ Knows initial before index

namespace Consistent

variable {initial client later : HttpClient} {log : List Exchange} {index : String}

/-- Nothing is mapped at first, and nothing was sent. -/
theorem new (config : BackendConfig) (base : Url) (s : σ) :
    Consistent (HttpSession.new config base s).client (HttpSession.new config base s).client
      (HttpSession.new config base s).log where
  config := rfl
  base := rfl
  mapped index := by
    refine ⟨nofun, ?_⟩
    rintro ⟨before, e, after, hlog, -⟩
    exact absurd hlog.symm (by simp [HttpSession.new])
  sent before e after hlog := absurd hlog.symm (by simp [HttpSession.new])

/-- One more exchange. -/
theorem append (h : Consistent initial client log) {e : Exchange}
    (hrequest : e.request ∈ client.requests e.call)
    (hadds : ∀ index document, e.Adds initial index document → index ∈ client.mapped)
    (hconfig : later.config = client.config) (hbase : later.base = client.base)
    (hmapped : ∀ index, index ∈ later.mapped ↔
      e.Makes initial index ∨ index ∈ client.mapped ∧ ¬e.Removes index) :
    Consistent initial later (log ++ [e]) where
  config := hconfig.trans h.config
  base := hbase.trans h.base
  mapped index := by rw [hmapped, knows_append, h.mapped]
  sent before e' after hlog := by
    rcases eq_append_cons_cases hlog with ⟨rfl, rfl, -⟩ | ⟨rest, -, rfl⟩
    · rw [HttpClient.requests_congr h.config h.base] at hrequest
      refine ⟨hrequest, fun index classification identifier document hcall hmethod => ?_⟩
      have hadd := Exchange.adds_of_mem hcall hrequest hmethod
      exact ⟨hadd, (h.mapped index).mp (hadds index document hadd)⟩
    · exact h.sent before e' rest rfl

/-- A request that makes an index. -/
theorem make (h : Consistent initial client log) {call : Request}
    (hcall : call.makes? = some index) (put : Result HttpResponse) :
    Consistent initial (if HttpClient.created put then client.map index else client)
      (log ++ [⟨call, client.creation index, put⟩]) := by
  have hrequest : client.creation index ∈ client.requests call := by
    cases call with
    | index | createIndex =>
      cases hcall
      exact List.mem_cons_self
    | _ => cases hcall
  refine h.append hrequest (fun name document hadd => nomatch hadd.2.1) ?_ ?_ fun name => ?_
  · cases HttpClient.created put <;> rfl
  · cases HttpClient.created put <;> rfl
  · have hremoves : ¬(⟨call, client.creation index, put⟩ : Exchange).Removes name :=
      fun hremove => nomatch hremove.1
    have hmakes : (⟨call, client.creation index, put⟩ : Exchange).Makes initial name ↔
        name = index ∧ HttpClient.created put = true := by
      constructor
      · rintro ⟨hname, -, -, -, hput⟩
        exact ⟨Option.some.inj (hname.symm.trans hcall), hput⟩
      · rintro ⟨rfl, hput⟩
        exact ⟨hcall, rfl, congrFun (HttpClient.url_congr h.base) _, rfl, hput⟩
    rw [hmakes]
    cases hput : HttpClient.created put with
    | true => simp [HttpClient.mem_map, hremoves]
    | false => simp [hremoves]

/-- A document that is sent to a mapped index. -/
theorem add (h : Consistent initial client log) (hmapped : index ∈ client.mapped)
    (classification identifier : String) (document : Json.Value) (post : Result HttpResponse) :
    Consistent initial client (log ++ [⟨.index index classification identifier document,
      client.addition index document, post⟩]) := by
  refine h.append (List.mem_cons_of_mem _ List.mem_cons_self) ?_ rfl rfl fun name => ?_
  · rintro name _ ⟨⟨_, _, hcall⟩, -⟩
    cases hcall
    exact hmapped
  · refine ⟨fun hname => .inr ⟨hname, fun hremove => nomatch hremove.1⟩, ?_⟩
    rintro (hmake | ⟨hname, -⟩)
    · exact nomatch hmake.2.1
    · exact hname

/-- A request that removes indices. -/
theorem remove (h : Consistent initial client log) (pattern : String)
    (outcome : Result HttpResponse) :
    Consistent initial (if HttpClient.removed outcome then client.unmap pattern else client)
      (log ++ [⟨.deleteIndices pattern, client.removal pattern, outcome⟩]) := by
  refine h.append List.mem_cons_self (fun name document hadd => nomatch hadd.2.1) ?_ ?_
    fun name => ?_
  · cases HttpClient.removed outcome <;> rfl
  · cases HttpClient.removed outcome <;> rfl
  · have hmakes :
        ¬(⟨.deleteIndices pattern, client.removal pattern, outcome⟩ : Exchange).Makes initial name :=
      fun hmake => nomatch hmake.2.1
    have hremoves :
        (⟨.deleteIndices pattern, client.removal pattern, outcome⟩ : Exchange).Removes name ↔
          HttpClient.removed outcome = true ∧ wildcardMatches pattern name = true := by
      constructor
      · rintro ⟨-, hremoved, _, hcall, hmatch⟩
        cases hcall
        exact ⟨hremoved, hmatch⟩
      · rintro ⟨hremoved, hmatch⟩
        exact ⟨rfl, hremoved, pattern, rfl, hmatch⟩
    rw [hremoves]
    cases hremoved : HttpClient.removed outcome with
    | true => simp [HttpClient.mem_unmap, hmakes]
    | false => simp [hmakes]

/-- A request that changes nothing. -/
theorem look (h : Consistent initial client log) {e : Exchange}
    (hrequest : e.request ∈ client.requests e.call) (hmakes : e.call.makes? = none)
    (hremoves : ∀ pattern, e.call ≠ .deleteIndices pattern) :
    Consistent initial client (log ++ [e]) := by
  refine h.append hrequest ?_ rfl rfl fun name => ?_
  · rintro name document ⟨⟨_, _, hindex⟩, -⟩
    rw [hindex] at hmakes
    cases hmakes
  · have hmake : ¬e.Makes initial name := fun hmake => nomatch hmakes.symm.trans hmake.1
    have hremove : ¬e.Removes name := fun ⟨_, _, pattern, hdelete, _⟩ => hremoves pattern hdelete
    simp [hmake, hremove]

end Consistent

variable {session : HttpSession σ} {initial : HttpClient}

/-- Every call keeps what a client knows in line with the log. -/
theorem Serves.consistent {call : Request} {served : Result call.Answer × HttpSession σ}
    (h : session.Serves call served) (hbefore : Consistent initial session.client session.log) :
    Consistent initial served.2.client served.2.log := by
  cases h with
  | adds hmapped => exact hbefore.add hmapped ..
  | @refuses index classification identifier document _ _ put hput =>
    have hcall : (Request.index index classification identifier document).makes? = some index := rfl
    have hafter := hbefore.make hcall put
    rw [hput] at hafter
    exact hafter
  | @makes index classification identifier document _ _ put hput post =>
    have hcall : (Request.index index classification identifier document).makes? = some index := rfl
    have hmade := hbefore.make hcall put
    rw [hput] at hmade
    have hknown : index ∈ (session.client.map index).mapped := HttpClient.mem_map.mpr (.inl rfl)
    have hafter := hmade.add hknown classification identifier document post
    rw [List.append_assoc] at hafter
    exact hafter
  | creates => exact hbefore.make rfl _
  | removes => exact hbefore.remove ..
  | searches => exact hbefore.look List.mem_cons_self rfl nofun
  | lists => exact hbefore.look List.mem_cons_self rfl nofun

theorem Consistent.run (h : Consistent initial session.client session.log) (send : HttpTransport σ)
    (calls : List Request) :
    Consistent initial (session.run send calls).client (session.run send calls).log := by
  induction calls generalizing session with
  | nil => exact h
  | cons call rest ih => exact ih ((serves send session call).consistent h)

/-- A document for an index that is mapped is sent at once; else the index is made first, and if
that is refused nothing follows. -/
theorem Serves.log_of_index {index classification identifier : String} {document : Json.Value}
    {served : Result Unit × HttpSession σ}
    (h : session.Serves (.index index classification identifier document) served) :
    ∃ put post,
      let call := .index index classification identifier document
      let making : Exchange := ⟨call, session.client.creation index, put⟩
      let adding : Exchange := ⟨call, session.client.addition index document, post⟩
      served.2.log = session.log ++
        if index ∈ session.client.mapped then [adding]
        else making :: if HttpClient.created put then [adding] else [] := by
  cases h with
  | adds hmapped s post => exact ⟨post, post, by simp [sent, hmapped]⟩
  | @refuses _ _ _ _ hmapped s put hput => exact ⟨put, put, by simp [sent, hmapped, hput]⟩
  | @makes _ _ _ _ hmapped s put hput post => exact ⟨put, post, by simp [sent, hmapped, hput]⟩

/-- A call that fails leaves what the client knows as it was, but for an index that was made for a
document which then could not be added. -/
theorem Serves.of_error {call : Request} {served : Result call.Answer × HttpSession σ} {e : Error}
    (h : session.Serves call served) (herror : served.1 = .error e) :
    served.2.client = session.client ∨
      ∃ index classification identifier document s put post,
        call = .index index classification identifier document ∧ index ∉ session.client.mapped ∧
        HttpClient.created put = true ∧ HttpClient.added post = false ∧
        served.2 = session.sent call
          [(session.client.creation index, put), (session.client.addition index document, post)]
          (session.client.map index) s := by
  cases h with
  | adds | refuses | searches | lists => exact .inl rfl
  | @makes _ _ _ _ hmapped s _ hput post answer hanswer =>
    obtain rfl : answer = .error e := herror
    exact .inr ⟨_, _, _, _, s, _, post, rfl, hmapped, hput, hanswer.symm, rfl⟩
  | @creates _ s put answer hanswer =>
    obtain rfl : answer = .error e := herror
    left
    show (if HttpClient.created put then _ else _) = _
    rw [← hanswer]
    rfl
  | @removes _ s outcome answer hanswer =>
    obtain rfl : answer = .error e := herror
    left
    show (if HttpClient.removed outcome then _ else _) = _
    rw [← hanswer]
    rfl

/-- **A client adds documents only to indices that it takes to be mapped.** Whatever a new client
is called for, and whatever becomes of its requests: an index is among the mapped ones exactly
if the log says so, and whatever was posted for a document is that document, of whose index the
log said so by then. So one
more document is sent alone if its index is mapped; otherwise the index is made first, and if
that is refused nothing follows. A call that fails changes what the client knows in one case
only, that of a document which is refused after its index was made. -/
theorem mapped_exactly (send : HttpTransport σ) (config : BackendConfig) (base : Url) (s : σ)
    (calls : List Request) :
    let initial := (new config base s).client
    let session := (new config base s).run send calls
    (∀ index, index ∈ session.client.mapped ↔ Knows initial session.log index) ∧
    (∀ before e after, session.log = before ++ e :: after →
      e.request ∈ initial.requests e.call ∧ ∀ index classification identifier document,
        e.call = .index index classification identifier document → e.request.method = .post →
          e.Adds initial index document ∧ Knows initial before index) ∧
    (∀ index classification identifier document, ∃ put post,
      let call := .index index classification identifier document
      let making : Exchange := ⟨call, session.client.creation index, put⟩
      let adding : Exchange := ⟨call, session.client.addition index document, post⟩
      (session.serve send call).2.log = session.log ++
        if index ∈ session.client.mapped then [adding]
        else making :: if HttpClient.created put then [adding] else []) ∧
    ∀ call e, (session.serve send call).1 = .error e →
      (session.serve send call).2.client = session.client ∨
      ∃ index classification identifier document s put post,
        call = .index index classification identifier document ∧ index ∉ session.client.mapped ∧
        HttpClient.created put = true ∧ HttpClient.added post = false ∧
        (session.serve send call).2 = session.sent call
          [(session.client.creation index, put), (session.client.addition index document, post)]
          (session.client.map index) s := by
  intro initial session
  have hconsistent : Consistent initial session.client session.log :=
    (Consistent.new config base s).run send calls
  exact ⟨hconsistent.mapped, hconsistent.sent,
    fun index classification identifier document => (serves send session _).log_of_index,
    fun call e herror => (serves send session call).of_error herror⟩

end HttpSession

end VersionStore
