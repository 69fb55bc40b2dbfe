import FilterPlan.Json.Printer
import FilterPlan.Plan
import FilterPlan.Sha256

set_option autoImplicit false

namespace FilterPlan

structure Fingerprint where
  bytes : List UInt8
deriving DecidableEq, Repr

namespace Fingerprint

def hex (fingerprint : Fingerprint) : String :=
  String.ofList (fingerprint.bytes.flatMap fun byte =>
    [Json.hexDigit (byte.toNat / 16), Json.hexDigit (byte.toNat % 16)])

def short (fingerprint : Fingerprint) : String := String.ofList (fingerprint.hex.toList.take 8)

def countBytes (count : Nat) : List UInt8 := Sha256.bigEndian 8 count

def textBytes (text : String) : List UInt8 :=
  let bytes := text.toUTF8.data.toList
  countBytes bytes.length ++ bytes

def nodeBytes : Node → List UInt8
  | .leaf found => 0x01 :: (textBytes found.filter ++ textBytes found.instruction)
  | .and children => 0x02 :: countBytes children.length
  | .or children => 0x03 :: countBytes children.length
  | .not _ _ => [0x04]

def bytesOf (pending : List Node) : List UInt8 :=
  match pending with
  | [] => []
  | .leaf found :: rest => nodeBytes (.leaf found) ++ bytesOf rest
  | .and children :: rest => nodeBytes (.and children) ++ bytesOf (children ++ rest)
  | .or children :: rest => nodeBytes (.or children) ++ bytesOf (children ++ rest)
  | .not a b :: rest => nodeBytes (.not a b) ++ bytesOf (a :: b :: rest)
termination_by Node.weights pending
decreasing_by all_goals simp only [Node.weights, Node.weight, Node.weights_append]; omega

-- The version of the encoding, which every plan's bytes start with.
def marker : List UInt8 := "planfp:v1".toUTF8.data.toList

def image (plan : Plan) : List UInt8 :=
  marker ++ match plan.root with
    | none => [0x00]
    | some root => bytesOf [root]

end Fingerprint

def Plan.fingerprint (plan : Plan) : Fingerprint := ⟨Sha256.digest (Fingerprint.image plan)⟩

end FilterPlan
