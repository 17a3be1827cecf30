import NotifyRelay.IpAddress
import NotifyRelay.Library.Interaction
import NotifyRelay.Renderer

/-! The outside world of a webhook: `httpx`, the resolver and the HTTP client. Programs put
questions to it, and what it answers once says nothing about its other answers. -/
namespace NotifyRelay

/-- What is read of an `httpx.URL`. -/
structure Url where
  scheme : String
  rawHost : String
  host : String
  port : Option Nat
  netloc : String
  deriving DecidableEq, Repr

/-- `httpx.URL(url)` and `url.copy_with(host=host)`; the error is the text of the
`InvalidURL`. -/
structure Httpx where
  url : String → Except String Url
  copyWithHost : Url → String → Except String Url

/-- What `socket.getaddrinfo` raises. -/
inductive ResolverError where
  | gaierror (code : Int) (text : String)
  | unicodeError (text : String)
  | timeoutError (text : String)
  | other (exception : PyException)
  deriving DecidableEq, Repr

/-- The `sockaddr[0]` of each entry. -/
abbrev ResolverAnswer := Except ResolverError (List String)

structure ClientOptions where
  trustEnv : Bool
  followRedirects : Bool
  timeout : Rat

structure HttpRequest where
  method : String
  url : Url
  content : ByteArray
  headers : List (String × String)
  sniHostname : Option String

inductive TransportError where
  | timeoutException (text : String)
  | requestError (text : String)
  | other (exception : PyException)
  deriving DecidableEq, Repr

/-- Where the client opened a connection. -/
structure Dialled where
  scheme : String
  address : String
  deriving DecidableEq, Repr

/-- What the HTTP client did for a request: the names it resolved itself, the connections
it opened and the status it got. -/
structure PostReply where
  resolved : List String
  dialled : List Dialled
  outcome : Except TransportError Int

inductive Question where
  | getaddrinfo (host : String) (port : Option Nat)
  | acquireSlot
  /-- A lookup in the resolver pool, awaited for `timeout` seconds. -/
  | submit (host : String) (port : Option Nat) (timeout : Rat)
  | time
  | post (options : ClientOptions) (request : HttpRequest)

abbrev Question.Reply : Question → Type
  | .getaddrinfo _ _ => ResolverAnswer
  | .acquireSlot => Bool
  | .submit _ _ _ => Option ResolverAnswer
  | .time => Int
  | .post _ _ => PostReply

def Question.isLookup : Question → Bool
  | .getaddrinfo _ _ | .submit _ _ _ => true
  | _ => false

def Question.isPost : Question → Bool
  | .post _ _ => true
  | _ => false

abbrev Net (α : Type) := Program Question Question.Reply α
abbrev NetTrace := List (Exchange Question Question.Reply)

def lookups (trace : NetTrace) : NetTrace := trace.filter (·.question.isLookup)
def posts (trace : NetTrace) : NetTrace := trace.filter (·.question.isPost)

/-- The connections the HTTP client opened. -/
def connections (trace : NetTrace) : List Dialled :=
  trace.flatMap fun
    | ⟨.post _ _, reply⟩ => reply.dialled
    | _ => []

theorem mem_connections {trace : NetTrace} {target : Dialled} :
    target ∈ connections trace ↔ ∃ options request reply,
      (⟨.post options request, reply⟩ : Exchange Question Question.Reply) ∈ posts trace ∧
        target ∈ reply.dialled := by
  unfold connections posts
  rw [List.mem_flatMap]
  constructor
  · rintro ⟨⟨question, reply⟩, hmem, htarget⟩
    cases question with
    | post options request =>
        exact ⟨options, request, reply, List.mem_filter.mpr ⟨hmem, rfl⟩, htarget⟩
    | _ => cases htarget
  · rintro ⟨options, request, reply, hmem, htarget⟩
    exact ⟨_, (List.mem_filter.mp hmem).1, htarget⟩

@[simp] theorem lookups_append (before after : NetTrace) :
    lookups (before ++ after) = lookups before ++ lookups after := List.filter_append ..

@[simp] theorem posts_append (before after : NetTrace) :
    posts (before ++ after) = posts before ++ posts after := List.filter_append ..

theorem posts_eq_nil {trace : NetTrace}
    (h : ∀ exchange ∈ trace, exchange.question.isPost = false) : posts trace = [] :=
  List.filter_eq_nil_iff.mpr fun exchange hmem => by simp [h exchange hmem]

/-- What `httpx` documents: without proxies and redirects, a URL whose host was replaced by
an address is fetched from that address, and no name is resolved for it. -/
def DialsHost (httpx : Httpx)
    (possible : Exchange Question Question.Reply → Prop) : Prop :=
  ∀ options request reply url address, possible ⟨.post options request, reply⟩ →
    options.trustEnv = false → options.followRedirects = false →
    (IpAddress.parse address.toList).isSome = true →
    httpx.copyWithHost url address = .ok request.url →
    reply.resolved = [] ∧ ∀ target ∈ reply.dialled, target = ⟨url.scheme, address⟩

section Scenario

/-- An `httpx` that knows one URL. -/
def plainHttpx : Httpx where
  url text :=
    if text = "https://hooks.example.org/x" then
      .ok ⟨"https", "hooks.example.org", "hooks.example.org", none, "hooks.example.org"⟩
    else .error "unknown"
  copyWithHost url host := .ok { url with rawHost := host, host := host }

end Scenario

end NotifyRelay
