import Bluesafe.ForStd.JsonValue
import Bluesafe.Notify.Types

/-!
# The fingerprint of any payload

`stablePayloadFingerprint` and `domainNotificationIdempotencyKey`
(`notification-idempotency.ts`) on payloads of any shape and depth. `Bluesafe.Notify` computes
both for the payloads the program builds, whose keys are names; here the payload is any
object that `JSON.parse` can return, and the function builds a second object, so what counts
is how objects order and store their properties: array indices come first, and `__proto__` is
not an ordinary name for an assignment.
-/

namespace Bluesafe.Notify

open JsonValue (keys)

/-! ## Own properties -/

/-- The number a property name denotes if it is an array index. -/
def arrayIndex (k : String) : Option Nat :=
  let n := Nat.ofDigitChars 10 k.toList 0
  if Nat.toDigits 10 n = k.toList ∧ n < 4294967295 then some n else none

/-- An object lists the property `a` in front of `b`, whenever it got them: array indices come
    first, by their numbers. -/
def precedes (a b : String) : Bool :=
  match arrayIndex a, arrayIndex b with
  | some i, some j => decide (i < j)
  | some _, none => true
  | none, _ => false

/-- The names of the properties of an object, in the order in which it can list them. -/
def OwnKeys (ks : List String) : Prop := ks.Nodup ∧ ks.Pairwise fun a b => precedes b a = false

instance : DecidablePred OwnKeys := fun _ => inferInstanceAs (Decidable (_ ∧ _))

mutual

/-- A value whose objects list their members as objects do. -/
def WellListed : JsonValue → Prop
  | .arr items => WellListedItems items
  | .obj members => OwnKeys (keys members) ∧ WellListedMembers members
  | _ => True

def WellListedItems : List JsonValue → Prop
  | [] => True
  | v :: vs => WellListed v ∧ WellListedItems vs

def WellListedMembers : List (String × JsonValue) → Prop
  | [] => True
  | (_, v) :: ms => WellListed v ∧ WellListedMembers ms

end

/-- The name that sets the prototype of an object. -/
def proto : String := "__proto__"

/-- A new property, at its place among the others; an old one keeps its place. -/
def place (k : String) (v : JsonValue) : List (String × JsonValue) → List (String × JsonValue)
  | [] => [(k, v)]
  | m :: ms =>
    if m.1 = k then (k, v) :: ms
    else if precedes k m.1 then (k, v) :: m :: ms
    else m :: place k v ms

/-- `sorted[k] = v`. An assignment to `__proto__` makes no property. -/
def assign (sorted : List (String × JsonValue)) (k : String) (v : JsonValue) :
    List (String × JsonValue) :=
  if k = proto then sorted else place k v sorted

/-! ## Payloads -/

/-- `Record<string, unknown>`: an object. -/
structure Payload where
  members : List (String × JsonValue)
  listed : WellListed (.obj members)

namespace Payload

/-- The order of `Object.keys(payload).sort()`. -/
def KeyLe (m n : String × JsonValue) : Prop := unitsLe (utf16Units m.1) (utf16Units n.1) = true

instance : DecidableRel KeyLe := fun _ _ => inferInstanceAs (Decidable (_ = true))

/-- The object `sorted`. -/
def sorted (p : Payload) : List (String × JsonValue) :=
  (p.members.insertionSort KeyLe).foldl (fun sorted m => assign sorted m.1 m.2) []

/-- `stablePayloadFingerprint`. -/
def stablePayloadFingerprint (p : Payload) : List Char := (JsonValue.obj p.sorted).text

/-- The text that `domainNotificationIdempotencyKey` hashes. -/
def idempotencyBody (eventType recipientId channel : String) (payload : Payload) : List Char :=
  eventType.toList ++ '\n' :: (recipientId.toList ++ '\n' :: (channel.toList ++
    '\n' :: payload.stablePayloadFingerprint))

/-- `domainNotificationIdempotencyKey`; `sha256` is the digest in hexadecimal. -/
def domainNotificationIdempotencyKey (sha256 : List Char → String)
    (eventType recipientId channel : String) (payload : Payload) : String :=
  sha256 (idempotencyBody eventType recipientId channel payload)

end Payload

end Bluesafe.Notify
