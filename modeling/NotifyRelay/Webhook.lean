import NotifyRelay.Delivery
import NotifyRelay.Validators

/-! `apps/channels/webhook.py` and the signature it sends. -/
namespace NotifyRelay

namespace Security

def hmacHeaderName : String := "X-Notify-Signature"
def hmacTimestampHeader : String := "X-Notify-Timestamp"
def messageIdHeader : String := "X-Notify-Message-Id"
def signaturePrefix : String := "sha256="

/-- `compute_signature`; `hexdigest` is HMAC-SHA256 of a key and a text, and `none` the
`UnicodeEncodeError`. -/
def computeSignature (hexdigest : ByteArray → ByteArray → String) (body : ByteArray)
    (secret timestamp : String) : Option String :=
  if timestamp.toList.all fun c => c.toNat < 128 then
    let signed := timestamp.toUTF8 ++ ".".toUTF8 ++ body
    some (signaturePrefix ++ hexdigest secret.toUTF8 signed)
  else none

end Security

/-- The exceptions that leave `WebhookChannel.send`. -/
inductive SendError where
  | guard (error : GuardError)
  | invalidUrl (text : String)
  | unicodeEncodeError
  | indexError
  | transport (exception : PyException)
  deriving DecidableEq, Repr

structure WebhookChannel where
  httpx : Httpx
  hexdigest : ByteArray → ByteArray → String
  secretProvider : Message → String
  blockedNetworks : NetworksSetting
  timeoutS : Rat

namespace WebhookChannel

open Security Validators

/-- `_is_ip_literal`. -/
def isIpLiteral (host : String) : Bool := (IpAddress.parse host.toList).isSome

def clientOptions (channel : WebhookChannel) : ClientOptions where
  trustEnv := false
  followRedirects := false
  timeout := channel.timeoutS

/-- The POST to `target`, a copy of `url` with another host. -/
def request (message : Message) (url target : Url) (signature timestamp : String) :
    HttpRequest where
  method := "POST"
  url := target
  content := message.renderedBody.toUTF8
  headers := [("Host", url.netloc), ("Content-Type", "application/json"),
    ("User-Agent", "notify-relay/0.1"), (hmacHeaderName, signature),
    (hmacTimestampHeader, timestamp), (messageIdHeader, message.id)]
  sniHostname := if url.scheme = "https" && !isIpLiteral url.host then some url.rawHost else none

def statusResult (statusCode : Int) : ChannelResult :=
  if 200 ≤ statusCode ∧ statusCode < 300 then
    { success := true, transient := false, httpStatus := some statusCode }
  else
    { success := false
      transient := statusCode = 408 ∨ statusCode = 425 ∨ statusCode = 429 ∨
        500 ≤ statusCode ∧ statusCode < 600
      httpStatus := some statusCode
      errorMessage := s!"http {statusCode}" }

def transportResult : Except TransportError Int → Except SendError ChannelResult
  | .ok statusCode => .ok (statusResult statusCode)
  | .error (.timeoutException text) =>
      .ok { success := false, transient := true, errorMessage := s!"timeout: {text}" }
  | .error (.requestError text) =>
      .ok { success := false, transient := true, errorMessage := text }
  | .error (.other exception) => .error (.transport exception)

/-- The rest of `send`, once the URL is vetted. -/
def deliver (channel : WebhookChannel) (message : Message) (addresses : List String) :
    Net (Except SendError ChannelResult) :=
  match channel.httpx.url message.recipient with
  | .error text => .done (.error (.invalidUrl text))
  | .ok url =>
      .ask .time fun now =>
        let timestamp := toString now
        match computeSignature channel.hexdigest message.renderedBody.toUTF8
            (channel.secretProvider message) timestamp with
        | none => .done (.error .unicodeEncodeError)
        | some signature =>
            match addresses with
            | [] => .done (.error .indexError)
            | address :: _ =>
                match channel.httpx.copyWithHost url address with
                | .error text => .done (.error (.invalidUrl text))
                | .ok target =>
                    .ask (.post channel.clientOptions
                        (request message url target signature timestamp))
                      fun reply => .done (transportResult reply.outcome)

/-- `WebhookChannel.send`. -/
def send (channel : WebhookChannel) (message : Message) : Net (Except SendError ChannelResult) :=
  (validateWebhookUrl channel.httpx channel.blockedNetworks message.recipient none).bind fun
    | .error (.validationError messages) =>
        let errorMessage := String.intercalate "; " messages
        .done (.ok { success := false, transient := false, errorMessage := errorMessage })
    | .error error => .done (.error (.guard error))
    | .ok addresses => channel.deliver message addresses

end WebhookChannel

end NotifyRelay
