import FilterPlan.Plan.Fingerprint
import FilterPlan.Word

set_option autoImplicit false

namespace FilterPlan

namespace Sha256

def Collision (first second : List UInt8) : Prop := first ≠ second ∧ digest first = digest second

theorem big_endian_length (count value : Nat) : (bigEndian count value).length = count := by
  induction count generalizing value with
  | zero => rfl
  | succ count ih => rw [bigEndian, List.length_append, ih, List.length_singleton]

theorem of_nat_same (m n : Nat) (same : UInt8.ofNat m = UInt8.ofNat n) : m % 256 = n % 256 := by
  have values := congrArg UInt8.toNat same
  simpa using values

theorem big_endian_same (count m n : Nat) (smallM : m < Nat.pow 256 count) (smallN : n < Nat.pow 256 count)
    (same : bigEndian count m = bigEndian count n) : m = n := by
  induction count generalizing m n with
  | zero =>
      have isOne : Nat.pow 256 0 = 1 := rfl
      omega
  | succ count ih =>
      have next : Nat.pow 256 (count + 1) = Nat.pow 256 count * 256 := rfl
      rw [bigEndian, bigEndian] at same
      obtain ⟨higher, lowest⟩ := List.append_inj' same rfl
      have quotients : m / 256 = n / 256 := by
        apply ih _ _ _ _ higher
        · omega
        · omega
      have remainders := of_nat_same m n (List.cons.inj lowest).1
      omega

end Sha256

namespace Node

mutual
def Fits : Node → Prop
  | .leaf found => found.filter.utf8ByteSize ≤ maxWord64 ∧ found.instruction.utf8ByteSize ≤ maxWord64
  | .and children | .or children => children.length ≤ maxWord64 ∧ FitAll children
  | .not a b => a.Fits ∧ b.Fits
def FitAll : List Node → Prop
  | [] => True
  | node :: rest => node.Fits ∧ FitAll rest
end

-- A tag, what the node says of itself, and then the nodes below it in document order. Nothing marks the end of a
-- text, of a list of children or of a node.
mutual
def encoding : Node → List UInt8
  | .leaf found => 0x01 :: (Fingerprint.textBytes found.filter ++ Fingerprint.textBytes found.instruction)
  | .and children => 0x02 :: (Fingerprint.countBytes children.length ++ encodings children)
  | .or children => 0x03 :: (Fingerprint.countBytes children.length ++ encodings children)
  | .not a b => 0x04 :: (a.encoding ++ b.encoding)
def encodings : List Node → List UInt8
  | [] => []
  | node :: rest => node.encoding ++ encodings rest
end

theorem encodings_append (before after : List Node) :
    encodings (before ++ after) = encodings before ++ encodings after := by
  induction before with
  | nil => rfl
  | cons node rest ih => rw [List.cons_append, encodings, encodings, ih, List.append_assoc]

end Node

def Plan.Fits (plan : Plan) : Prop := ∀ root, plan.root = some root → root.Fits

def Plan.encoding (plan : Plan) : List UInt8 :=
  match plan.root with
  | none => [0x00]
  | some root => root.encoding

namespace Fingerprint

theorem count_bytes_same (m n : Nat) (rest other : List UInt8) (smallM : m ≤ maxWord64) (smallN : n ≤ maxWord64)
    (same : countBytes m ++ rest = countBytes n ++ other) : m = n ∧ rest = other := by
  have room : Nat.pow 256 8 = maxWord64 + 1 := by decide
  have lengths : (countBytes m).length = (countBytes n).length := by
    rw [countBytes, countBytes, Sha256.big_endian_length, Sha256.big_endian_length]
  obtain ⟨counts, rests⟩ := List.append_inj same lengths
  refine ⟨Sha256.big_endian_same 8 m n ?_ ?_ counts, rests⟩
  · omega
  · omega

theorem utf8_same (s t : String) (same : s.toUTF8.data.toList = t.toUTF8.data.toList) : s = t := by
  apply String.toByteArray_inj.mp
  apply ByteArray.ext
  exact Array.toList_inj.mp same

theorem text_bytes_same (s t : String) (rest other : List UInt8) (smallS : s.utf8ByteSize ≤ maxWord64)
    (smallT : t.utf8ByteSize ≤ maxWord64) (same : textBytes s ++ rest = textBytes t ++ other) :
    s = t ∧ rest = other := by
  simp only [textBytes, List.append_assoc] at same
  obtain ⟨lengths, bytes⟩ := count_bytes_same _ _ _ _ smallS smallT same
  obtain ⟨texts, rests⟩ := List.append_inj bytes lengths
  exact ⟨utf8_same s t texts, rests⟩

theorem bytes_of_encodings (pending : List Node) : bytesOf pending = Node.encodings pending := by
  fun_induction bytesOf pending with
  | case1 => rfl
  | case2 found rest ih => rw [ih, Node.encodings, Node.encoding, nodeBytes]
  | case3 children rest ih =>
      rw [ih, Node.encodings_append, Node.encodings, Node.encoding, nodeBytes]
      simp only [List.cons_append, List.append_assoc]
  | case4 children rest ih =>
      rw [ih, Node.encodings_append, Node.encodings, Node.encoding, nodeBytes]
      simp only [List.cons_append, List.append_assoc]
  | case5 a b rest ih =>
      rw [ih, Node.encodings, Node.encodings, Node.encodings, Node.encoding, nodeBytes]
      simp only [List.cons_append, List.nil_append, List.append_assoc]

theorem bytes_of_encoding (node : Node) : bytesOf [node] = node.encoding := by
  rw [bytes_of_encodings, Node.encodings, Node.encodings, List.append_nil]

theorem image_encoding (plan : Plan) : image plan = marker ++ plan.encoding := by
  rw [image, Plan.encoding]
  cases plan.root with
  | none => rfl
  | some root => exact congrArg (marker ++ ·) (bytes_of_encoding root)

end Fingerprint

namespace Node

-- What follows an encoding is not taken for a part of it: the tag tells the shape of the node, and the counts tell how
-- much belongs to it. The rests are arbitrary, which carries the induction through operands and children.
mutual
theorem encoding_same (m n : Node) (rest other : List UInt8) (fitsM : m.Fits) (fitsN : n.Fits)
    (same : m.encoding ++ rest = n.encoding ++ other) : m = n ∧ rest = other := by
  cases m with
  | leaf found =>
      cases n with
      | leaf known =>
          simp only [encoding, List.cons_append, List.append_assoc, List.cons.injEq, true_and] at same
          rw [Fits] at fitsM fitsN
          obtain ⟨filters, later⟩ := Fingerprint.text_bytes_same _ _ _ _ fitsM.1 fitsN.1 same
          obtain ⟨instructions, rests⟩ := Fingerprint.text_bytes_same _ _ _ _ fitsM.2 fitsN.2 later
          cases found
          cases known
          simp_all
      | and | or | not => simp [encoding] at same
  | and children =>
      cases n with
      | and others =>
          simp only [encoding, List.cons_append, List.append_assoc, List.cons.injEq, true_and] at same
          rw [Fits] at fitsM fitsN
          obtain ⟨lengths, later⟩ := Fingerprint.count_bytes_same _ _ _ _ fitsM.1 fitsN.1 same
          obtain ⟨inner, rests⟩ := encodings_same children others rest other lengths fitsM.2 fitsN.2 later
          exact ⟨by rw [inner], rests⟩
      | leaf | or | not => simp [encoding] at same
  | or children =>
      cases n with
      | or others =>
          simp only [encoding, List.cons_append, List.append_assoc, List.cons.injEq, true_and] at same
          rw [Fits] at fitsM fitsN
          obtain ⟨lengths, later⟩ := Fingerprint.count_bytes_same _ _ _ _ fitsM.1 fitsN.1 same
          obtain ⟨inner, rests⟩ := encodings_same children others rest other lengths fitsM.2 fitsN.2 later
          exact ⟨by rw [inner], rests⟩
      | leaf | and | not => simp [encoding] at same
  | not a b =>
      cases n with
      | not c d =>
          simp only [encoding, List.cons_append, List.append_assoc, List.cons.injEq, true_and] at same
          rw [Fits] at fitsM fitsN
          obtain ⟨first, later⟩ := encoding_same a c _ _ fitsM.1 fitsN.1 same
          obtain ⟨second, rests⟩ := encoding_same b d _ _ fitsM.2 fitsN.2 later
          exact ⟨by rw [first, second], rests⟩
      | leaf | and | or => simp [encoding] at same
theorem encodings_same (ms ns : List Node) (rest other : List UInt8) (lengths : ms.length = ns.length)
    (fitMs : FitAll ms) (fitNs : FitAll ns) (same : encodings ms ++ rest = encodings ns ++ other) :
    ms = ns ∧ rest = other := by
  cases ms with
  | nil =>
      cases ns with
      | nil => exact ⟨rfl, same⟩
      | cons n ns => simp at lengths
  | cons m ms =>
      cases ns with
      | nil => simp at lengths
      | cons n ns =>
          simp only [encodings, List.append_assoc] at same
          rw [FitAll] at fitMs fitNs
          obtain ⟨first, later⟩ := encoding_same m n _ _ fitMs.1 fitNs.1 same
          obtain ⟨others, rests⟩ :=
            encodings_same ms ns rest other (Nat.succ.inj lengths) fitMs.2 fitNs.2 later
          exact ⟨by rw [first, others], rests⟩
end

theorem encoding_prefix (m n : Node) (fitsM : m.Fits) (fitsN : n.Fits) (begins : m.encoding <+: n.encoding) :
    m = n := by
  obtain ⟨rest, same⟩ := begins
  exact (encoding_same m n rest [] fitsM fitsN (by rw [same, List.append_nil])).1

theorem encoding_tag (node : Node) (bytes : List UInt8) : node.encoding ≠ 0x00 :: bytes := by
  cases node <;> simp [encoding]

end Node

theorem Plan.encoding_same (p q : Plan) (fitsP : p.Fits) (fitsQ : q.Fits) (same : p.encoding = q.encoding) : p = q := by
  obtain ⟨_ | first⟩ := p
  · obtain ⟨_ | second⟩ := q
    · rfl
    · exact absurd same.symm (second.encoding_tag [])
  · obtain ⟨_ | second⟩ := q
    · exact absurd same (first.encoding_tag [])
    · have bytes : first.encoding ++ [] = second.encoding ++ [] := congrArg (· ++ []) same
      rw [(Node.encoding_same first second [] [] (fitsP first rfl) (fitsQ second rfl) bytes).1]

namespace Fingerprint

-- What is digested spells the plan: the walk writes the recursive encoding, no node's bytes begin another node's bytes,
-- and plans with the same bytes are the same. A fingerprint that two plans share is a collision of the digest.
theorem images_differ :
    (∀ node, bytesOf [node] = node.encoding) ∧ (∀ plan, image plan = marker ++ plan.encoding) ∧
      (∀ m n : Node, m.Fits → n.Fits → bytesOf [m] <+: bytesOf [n] → m = n) ∧
      ∀ p q : Plan, p.Fits → q.Fits → (image p = image q ↔ p = q) ∧
        (p.fingerprint = q.fingerprint → p = q ∨ Sha256.Collision (image p) (image q)) := by
  have injective (p q : Plan) (fitsP : p.Fits) (fitsQ : q.Fits) : image p = image q ↔ p = q := by
    constructor
    · intro same
      rw [image_encoding, image_encoding] at same
      exact Plan.encoding_same p q fitsP fitsQ (List.append_cancel_left same)
    · intro same
      rw [same]
  refine ⟨bytes_of_encoding, image_encoding, ?_, fun p q fitsP fitsQ => ⟨injective p q fitsP fitsQ, ?_⟩⟩
  · intro m n fitsM fitsN begins
    rw [bytes_of_encoding, bytes_of_encoding] at begins
    exact Node.encoding_prefix m n fitsM fitsN begins
  · intro shared
    by_cases same : p = q
    · exact Or.inl same
    · refine Or.inr ⟨fun images => same ((injective p q fitsP fitsQ).mp images), ?_⟩
      exact congrArg Fingerprint.bytes shared

def spelledOut : Plan := .ofNode (.and [.leaf ⟨"f", "\x01\x00\x00"⟩])

def spelledBeside : Plan := .ofNode (.and [.leaf ⟨"f", ""⟩, .leaf ⟨"", ""⟩])

theorem images_differ_beside :
    spelledOut.Fits ∧ spelledBeside.Fits ∧ image spelledOut ≠ image spelledBeside ∧
      (spelledOut.fingerprint = spelledBeside.fingerprint →
        Sha256.Collision (image spelledOut) (image spelledBeside)) := by
  have fitsOut : spelledOut.Fits := by
    rintro root ⟨⟩
    simp only [Node.Fits, Node.FitAll]
    decide
  have fitsBeside : spelledBeside.Fits := by
    rintro root ⟨⟩
    simp only [Node.Fits, Node.FitAll]
    decide
  have different : spelledOut ≠ spelledBeside := by decide
  obtain ⟨injective, collides⟩ := images_differ.2.2.2 spelledOut spelledBeside fitsOut fitsBeside
  exact ⟨fitsOut, fitsBeside, fun same => different (injective.mp same),
    fun shared => (collides shared).resolve_left different⟩

end Fingerprint

end FilterPlan
