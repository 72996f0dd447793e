import Bluesafe.Judge.Types
import Bluesafe.ForStd.Table
import Bluesafe.Async.Pool

/-!
# The credential service

`CredentialService` (`packages/xrpl-core/src/credential/CredentialService.ts`) builds and
submits the three transactions of a credential's life, and looks a credential up among the
objects of its subject.

The ledger is the environment. It keeps a `Credential` object from `CredentialCreate` until
`CredentialDelete`, at most one for an issuer, a subject and a type, it sets `lsfAccepted`
at `CredentialAccept`, and it lists an object under its issuer and under its subject, in an
order of its own. `applied` remembers the transactions it has applied.
-/

namespace Bluesafe.Credential

open Bluesafe.Ops (truthy)
open Bluesafe.Judge (TxResponse)

/-! ## Inputs and transactions -/

/-- `utf8ToHex`. -/
def utf8ToHex (s : String) : String := Text.hexOf s.toList

/-- `IssueCredentialInput`; `expirationUnix` is a number of seconds. -/
structure IssueCredentialInput where
  issuer : String
  subject : String
  credentialType : String
  expirationUnix : Option Rat := none
  documentUri : Option String := none

structure AcceptCredentialInput where
  subject : String
  issuer : String
  credentialType : String
  deriving DecidableEq, Repr

structure RevokeCredentialInput where
  issuer : String
  subject : String
  credentialType : String
  deriving DecidableEq, Repr

/-- `unixToRipple`. -/
def unixToRipple (unixSeconds : Rat) : Int := unixSeconds.floor - 946684800

/-- `currentRippleEpoch`, at the time `dateNow` in milliseconds. -/
def currentRippleEpoch (dateNow : Nat) : Int :=
  unixToRipple (Rat.ofInt (Int.ofNat (dateNow / 1000)))

inductive Tx
  | credentialCreate (account subject credentialType : String) (expiration : Option Int)
      (uri : Option String)
  | credentialAccept (account issuer credentialType : String)
  | credentialDelete (account subject issuer credentialType : String)
  deriving DecidableEq, Repr

/-- `buildIssue`. -/
def buildIssue (p : IssueCredentialInput) : Tx :=
  .credentialCreate p.issuer p.subject (utf8ToHex p.credentialType)
    (p.expirationUnix.map unixToRipple) ((truthy p.documentUri).map utf8ToHex)

/-- `buildAccept`. -/
def buildAccept (p : AcceptCredentialInput) : Tx :=
  .credentialAccept p.subject p.issuer (utf8ToHex p.credentialType)

/-- `buildRevoke`. -/
def buildRevoke (p : RevokeCredentialInput) : Tx :=
  .credentialDelete p.issuer p.subject p.issuer (utf8ToHex p.credentialType)

/-! ## The ledger -/

/-- `CredentialLedgerEntry`: a `Credential` object of the ledger. -/
structure CredentialLedgerEntry where
  issuer : String
  subject : String
  credentialType : String
  flags : Nat
  expiration : Option Int
  uri : Option String
  deriving DecidableEq, Repr

/-- What identifies a credential: the issuer, the subject and the type. -/
def CredentialLedgerEntry.key (c : CredentialLedgerEntry) : String × String × String :=
  (c.issuer, c.subject, c.credentialType)

/-- The flag `lsfAccepted`. -/
def lsfAccepted : Nat := 0x00010000

def CredentialLedgerEntry.isAccepted (c : CredentialLedgerEntry) : Bool :=
  decide (c.flags &&& lsfAccepted ≠ 0)

/-- An object of an account. -/
inductive LedgerEntry
  | credential (c : CredentialLedgerEntry)
  | other (ledgerEntryType : String)
  deriving DecidableEq, Repr

/-- The applied transactions, newest first, and the credentials they have left. -/
structure Ledger where
  applied : List Tx
  objects : Table CredentialLedgerEntry.key

def Ledger.empty : Ledger := ⟨[], .empty⟩

/-- What the ledger does with a transaction that it is willing to apply: a second credential
    under one key, the acceptance of none or of an accepted one, and the deletion of none are
    refused. -/
def Ledger.apply (s : Ledger) : Tx → Option Ledger
  | .credentialCreate account subject credentialType expiration uri =>
    match s.objects.get? (account, subject, credentialType) with
    | some _ => none
    | none => some {
        applied := .credentialCreate account subject credentialType expiration uri :: s.applied
        objects := s.objects.set ⟨account, subject, credentialType, 0, expiration, uri⟩ }
  | .credentialAccept account issuer credentialType =>
    match s.objects.get? (issuer, account, credentialType) with
    | none => none
    | some c =>
      if c.isAccepted then none
      else some {
        applied := .credentialAccept account issuer credentialType :: s.applied
        objects := s.objects.set { c with flags := c.flags ||| lsfAccepted } }
  | .credentialDelete account subject issuer credentialType =>
    match s.objects.get? (issuer, subject, credentialType) with
    | none => none
    | some _ =>
      if account ≠ issuer ∧ account ≠ subject then none
      else some {
        applied := .credentialDelete account subject issuer credentialType :: s.applied
        objects := s.objects.erase (issuer, subject, credentialType) }

/-- The answer of `account_objects` holds the credentials of the account, as issuer or as
    subject, and no others. -/
def Ledger.lists (s : Ledger) (account : String) (objects : List LedgerEntry) : Bool :=
  (objects.all fun
    | .credential c => decide (s.objects.get? c.key = some c) &&
        (decide (c.issuer = account) || decide (c.subject = account))
    | .other _ => true) &&
  s.objects.rows.all fun c =>
    !(decide (c.issuer = account) || decide (c.subject = account)) ||
      objects.contains (.credential c)

/-! ## Calls -/

inductive Call
  | autofill (tx : Tx)
  | submitAndWait (tx : Tx)
  | accountObjects (account : String)
  | clock

/-- The answer type of each call. -/
@[reducible] def Call.Res : Call → Type
  | .autofill _ => Unit
  | .submitAndWait _ => TxResponse
  | .accountObjects _ => List LedgerEntry
  | .clock => Nat

/-- The interface of the service's programs. -/
@[reducible] def calls : Interface := ⟨Call, Call.Res⟩

/-- A method of the service; a rejection carries the error message. -/
abbrev CredentialM (α : Type) : Type := Async calls String α

/-- Await one call. -/
abbrev invoke (op : Call) : CredentialM op.Res := Async.call (I := calls) op

/-- What the environment decides at a call; `applied` says whether the ledger is willing to
    apply a transaction, also when the answer is lost. -/
structure Choice where
  failure : Option String := none
  applied : Bool := false
  response : TxResponse := ⟨none, none⟩
  objects : List LedgerEntry := []
  dateNow : Nat := 0

/-- The ledger after a submission. -/
def Ledger.submit (s : Ledger) (tx : Tx) (applied : Bool) : Ledger :=
  if applied then (s.apply tx).getD s else s

/-- The answer and the effect of a call. -/
def serve : (op : Call) → Choice → Ledger → Except String op.Res × Ledger
  | .autofill _, c, s =>
    match c.failure with
    | none => (.ok (), s)
    | some e => (.error e, s)
  | .submitAndWait tx, c, s =>
    match c.failure with
    | none => (.ok c.response, s.submit tx c.applied)
    | some e => (.error e, s.submit tx c.applied)
  | .accountObjects _, c, s =>
    match c.failure with
    | none => (.ok c.objects, s)
    | some e => (.error e, s)
  | .clock, c, s => (.ok c.dateNow, s)

/-- The ledger lists what it holds. -/
def world : World calls String Ledger Choice where
  allow := fun op c s =>
    match op with
    | .accountObjects account => s.lists account c.objects
    | _ => true
  serve := serve

/-! ## Methods -/

/-- `XrplClient.signAndSubmit`: autofill, sign, submit. A wallet that cannot sign rejects as
    the autofill does. -/
def signAndSubmit (tx : Tx) : CredentialM TxResponse := do
  invoke (.autofill tx)
  invoke (.submitAndWait tx)

def issue (p : IssueCredentialInput) : CredentialM TxResponse := signAndSubmit (buildIssue p)

def accept (p : AcceptCredentialInput) : CredentialM TxResponse := signAndSubmit (buildAccept p)

def revoke (p : RevokeCredentialInput) : CredentialM TxResponse := signAndSubmit (buildRevoke p)

/-- The condition of the search in `verifyCredential`: the issuer and the type. -/
def LedgerEntry.match? (issuer wantedType : String) : LedgerEntry →
    Option CredentialLedgerEntry
  | .credential c => if c.issuer = issuer ∧ c.credentialType = wantedType then some c else none
  | .other _ => none

/-- `verifyCredential`. -/
def verifyCredential (p : AcceptCredentialInput) :
    CredentialM (Option CredentialLedgerEntry) := do
  let objects ← invoke (.accountObjects p.subject)
  match objects.findSome? (LedgerEntry.match? p.issuer (utf8ToHex p.credentialType)) with
  | none => return none
  | some c =>
    match c.expiration with
    | none => return some c
    | some expiration =>
      let dateNow ← invoke .clock
      if expiration ≤ currentRippleEpoch dateNow then return none
      else return some c

/-! ## The service as a system -/

inductive Request
  | issue (p : IssueCredentialInput)
  | accept (p : AcceptCredentialInput)
  | revoke (p : RevokeCredentialInput)
  | verifyCredential (p : AcceptCredentialInput)

/-- The program of each method call. -/
def handle : Request → CredentialM Unit
  | .issue p => do let _ ← issue p
  | .accept p => do let _ ← accept p
  | .revoke p => do let _ ← revoke p
  | .verifyCredential p => do let _ ← verifyCredential p

/-- The service with its method calls in progress. -/
abbrev CredentialPool : Type := Async.Pool calls String Ledger Request Unit

/-- The service: method calls are interleaved at their calls. -/
def credentialStep : CredentialPool → Async.Act Request Choice → Option CredentialPool :=
  Async.poolStep world handle

end Bluesafe.Credential
