import NotifyRelay.Delivery
import NotifyRelay.Text

/-! `apps/channels/email.py`, and what it stands on: Django's e-mail backend and `smtplib`. -/
namespace NotifyRelay

/-- `smtp_error`, the text of a reply. -/
inductive SmtpError where
  | bytes (value : List UInt8)
  | str (value : String)
  deriving DecidableEq, Repr

/-- `SMTPResponseException` and its subclasses. -/
inductive ResponseException where
  | responseException
  | connectError
  | heloError
  | authenticationError
  | senderRefused (sender : Option String)
  | dataError
  deriving DecidableEq, Repr

/-- `SMTPException` and its subclasses. `text` is what `str` makes of the exception. -/
inductive SmtpException where
  | response (type : ResponseException) (smtpCode : Int) (smtpError : SmtpError)
  | recipientsRefused (recipients : List (String × Int × List UInt8)) (text : String)
  | other (text : String)
  deriving DecidableEq, Repr

/-- How `send_messages` of the backend ends. `raised` is an exception that is not from
`smtplib`. -/
inductive BackendOutcome where
  | sent (count : Nat)
  | smtpException (exception : SmtpException)
  | raised (repr : String)
  deriving DecidableEq, Repr

structure EmailMessage where
  subject : String
  body : String
  fromEmail : Option String
  toAddresses : List String
  contentSubtype : String

abbrev EmailBackend := EmailMessage → BackendOutcome

namespace EmailMessage

/-- `recipients()` drops the empty ones. -/
def recipients (email : EmailMessage) : List String := email.toAddresses.filter (· ≠ "")

/-- `EmailMessage.send`: the backend does not see a message without recipients. -/
def send (email : EmailMessage) (backend : EmailBackend) : BackendOutcome :=
  if email.recipients = [] then .sent 0 else backend email

end EmailMessage

structure EmailChannel where
  /-- `DEFAULT_FROM_EMAIL`. -/
  defaultFromEmail : Option String
  backend : EmailBackend

namespace EmailChannel

open Delivery (SendOutcome)

def newEmail (channel : EmailChannel) (message : Message) : EmailMessage where
  subject := if message.renderedSubject = "" then "(no subject)" else message.renderedSubject
  body := message.renderedBody
  fromEmail := channel.defaultFromEmail
  toAddresses := [message.recipient]
  contentSubtype := "html"

def errorText : SmtpError → String
  | .bytes value => Text.decodeReplace value
  | .str value => value

/-- The two `except` clauses. -/
def exceptionResult : SmtpException → ChannelResult
  | .response _ code error =>
      { success := false
        transient := 400 ≤ code ∧ code < 500
        smtpCode := some code
        errorMessage := errorText error }
  | .recipientsRefused _ text => { success := false, transient := true, errorMessage := text }
  | .other text => { success := false, transient := true, errorMessage := text }

def outcomeOf : BackendOutcome → SendOutcome
  | .smtpException exception => .returned (exceptionResult exception)
  | .raised repr => .raised repr
  | .sent count =>
      if count = 0 then
        .returned { success := false, transient := true,
                    errorMessage := "email backend reported zero sent" }
      else .returned { success := true, transient := false }

/-- `EmailChannel.send`. -/
def send (channel : EmailChannel) (message : Message) : SendOutcome :=
  outcomeOf ((channel.newEmail message).send channel.backend)

end EmailChannel

end NotifyRelay
