import Mathlib.Data.List.GetD
import Mathlib.Tactic

/-!
# Aligned wire formats

A wire format of this kind is a list of chunks. Each chunk is some bytes that start at a
multiple of its alignment, counted from the start of the body; the gap is filled with zeros.

* `alignUp`: the next aligned position; it is monotone.
* `endOf`: where a list of slots (alignments and widths) ends. `endOf_le`: fewer and narrower
  slots end no later, whatever that does to the padding in between.
* `encode`: the bytes of a list of chunks; `encode_append`, `encode_length`, `encode_padding`.
* `Holds`: a body has the chunks at a position; `Holds.head` reads one off.
-/

namespace OpenRtdds.Lib

/-- The least multiple of `a` that is at least `x`. -/
def alignUp (a x : ℕ) : ℕ := x + if x % a = 0 then 0 else a - x % a

theorem le_alignUp (a x : ℕ) : x ≤ alignUp a x := Nat.le_add_right _ _

@[simp] theorem alignUp_one (x : ℕ) : alignUp 1 x = x := by simp [alignUp, Nat.mod_one]

theorem alignUp_eq {a : ℕ} (ha : 0 < a) (x : ℕ) : alignUp a x = a * ((x + (a - 1)) / a) := by
  have hdiv := Nat.div_add_mod x a
  have hlt := Nat.mod_lt x ha
  unfold alignUp
  set q := x / a with hq
  by_cases hz : x % a = 0
  · have hx : (x + (a - 1)) / a = q := by
      rw [← hdiv, hz, Nat.add_zero, Nat.mul_add_div ha, Nat.div_eq_of_lt (by omega), Nat.add_zero]
    rw [if_pos hz, hx]
    omega
  · have hx : (x + (a - 1)) / a = q + 1 := by
      have hsplit : x + (a - 1) = a * (q + 1) + (x % a - 1) := by
        rw [Nat.mul_add, Nat.mul_one]
        omega
      rw [hsplit, Nat.mul_add_div ha, Nat.div_eq_of_lt (by omega), Nat.add_zero]
    rw [if_neg hz, hx, Nat.mul_add, Nat.mul_one]
    omega

theorem alignUp_mono (a : ℕ) {x y : ℕ} (h : x ≤ y) : alignUp a x ≤ alignUp a y := by
  by_cases ha : a = 0
  · subst ha
    simp only [alignUp, Nat.mod_zero, Nat.zero_sub, ite_self, Nat.add_zero]
    exact h
  · have ha' : 0 < a := Nat.pos_of_ne_zero ha
    rw [alignUp_eq ha', alignUp_eq ha']
    exact Nat.mul_le_mul_left a (Nat.div_le_div_right (Nat.add_le_add_right h _))

/-- The place of a chunk: its alignment and the number of its bytes. -/
structure Slot where
  align : ℕ
  width : ℕ
  deriving DecidableEq

namespace Slot

/-- The position after a slot that is placed at or after `x`. -/
def after (s : Slot) (x : ℕ) : ℕ := alignUp s.align x + s.width

/-- A slot of the same alignment that is not wider. -/
def Le (s t : Slot) : Prop := s.align = t.align ∧ s.width ≤ t.width

theorem le_after (s : Slot) (x : ℕ) : x ≤ s.after x := (le_alignUp _ _).trans (Nat.le_add_right _ _)

theorem after_mono {s t : Slot} (h : s.Le t) {x y : ℕ} (hxy : x ≤ y) : s.after x ≤ t.after y := by
  unfold after
  rw [h.1]
  exact Nat.add_le_add (alignUp_mono _ hxy) h.2

end Slot

/-- The position after a list of slots. -/
def endOf (l : List Slot) (x : ℕ) : ℕ := l.foldl (fun x s => s.after x) x

@[simp] theorem endOf_nil (x : ℕ) : endOf [] x = x := rfl

@[simp] theorem endOf_cons (s : Slot) (l : List Slot) (x : ℕ) :
    endOf (s :: l) x = endOf l (s.after x) := rfl

theorem endOf_append (l m : List Slot) (x : ℕ) : endOf (l ++ m) x = endOf m (endOf l x) :=
  List.foldl_append

theorem le_endOf (l : List Slot) (x : ℕ) : x ≤ endOf l x := by
  induction l generalizing x with
  | nil => exact le_rfl
  | cons s l ih => exact (s.le_after x).trans (ih _)

/-- `l` is obtained from `m` by narrowing and leaving out slots. -/
abbrev Within (l m : List Slot) : Prop := List.SublistForall₂ Slot.Le l m

theorem Within.refl (l : List Slot) : Within l l := by
  induction l with
  | nil => exact .nil
  | cons s l ih => exact .cons ⟨rfl, le_rfl⟩ ih

theorem Within.append {l l' m m' : List Slot} (h : Within l m) (h' : Within l' m') :
    Within (l ++ l') (m ++ m') := by
  obtain ⟨k, hk, hs⟩ := List.sublistForall₂_iff.1 h
  obtain ⟨k', hk', hs'⟩ := List.sublistForall₂_iff.1 h'
  exact List.sublistForall₂_iff.2 ⟨k ++ k', List.rel_append hk hk', hs.append hs'⟩

/-- **Fewer and narrower slots end no later.** -/
theorem endOf_le {l m : List Slot} (h : Within l m) {x y : ℕ} (hxy : x ≤ y) :
    endOf l x ≤ endOf m y := by
  induction h generalizing x y with
  | nil => exact hxy.trans (le_endOf _ _)
  | cons hst _ ih => exact ih (Slot.after_mono hst hxy)
  | cons_right _ ih => exact ih (hxy.trans (Slot.le_after _ _))

/-- Some bytes with an alignment. -/
structure Chunk where
  align : ℕ
  bytes : List UInt8

namespace Chunk

def slot (c : Chunk) : Slot := ⟨c.align, c.bytes.length⟩

/-- The chunk and the zeros before it, if it is placed at or after `x`. -/
def placed (c : Chunk) (x : ℕ) : List UInt8 := List.replicate (alignUp c.align x - x) 0 ++ c.bytes

theorem placed_length (c : Chunk) (x : ℕ) : (c.placed x).length = c.slot.after x - x := by
  have := le_alignUp c.align x
  simp only [placed, slot, Slot.after, List.length_append, List.length_replicate]
  omega

end Chunk

/-- The position after a list of chunks. -/
def endOfChunks (cs : List Chunk) (x : ℕ) : ℕ := endOf (cs.map Chunk.slot) x

@[simp] theorem endOfChunks_nil (x : ℕ) : endOfChunks [] x = x := rfl

@[simp] theorem endOfChunks_cons (c : Chunk) (cs : List Chunk) (x : ℕ) :
    endOfChunks (c :: cs) x = endOfChunks cs (c.slot.after x) := rfl

theorem endOfChunks_append (cs ds : List Chunk) (x : ℕ) :
    endOfChunks (cs ++ ds) x = endOfChunks ds (endOfChunks cs x) := by
  rw [endOfChunks, List.map_append, endOf_append]
  rfl

theorem le_endOfChunks (cs : List Chunk) (x : ℕ) : x ≤ endOfChunks cs x := le_endOf _ _

/-- The bytes of a list of chunks from the position `x` on. -/
def encode : ℕ → List Chunk → List UInt8
  | _, [] => []
  | x, c :: cs => c.placed x ++ encode (c.slot.after x) cs

theorem encode_length (x : ℕ) (cs : List Chunk) : (encode x cs).length = endOfChunks cs x - x := by
  induction cs generalizing x with
  | nil => simp [encode]
  | cons c cs ih =>
    have h1 := c.slot.le_after x
    have h2 := le_endOfChunks cs (c.slot.after x)
    simp only [encode, List.length_append, c.placed_length, ih, endOfChunks_cons]
    omega

theorem encode_append (x : ℕ) (cs ds : List Chunk) :
    encode x (cs ++ ds) = encode x cs ++ encode (endOfChunks cs x) ds := by
  induction cs generalizing x with
  | nil => rfl
  | cons c cs ih =>
    simp only [List.cons_append, encode, ih, endOfChunks_cons, List.append_assoc]

/-- **The padding is zero**: a byte that no chunk covers. -/
theorem encode_padding {x i : ℕ} {cs : List Chunk}
    (h : ∀ before c after, cs = before ++ c :: after →
      x + i < alignUp c.align (endOfChunks before x) ∨ c.slot.after (endOfChunks before x) ≤ x + i) :
    (encode x cs).getD i 0 = 0 := by
  induction cs generalizing x i with
  | nil => rfl
  | cons c cs ih =>
    have hlength := c.placed_length x
    have hle := c.slot.le_after x
    rw [encode]
    rcases h [] c cs rfl with hbefore | hafter
    · -- in the zeros before the first chunk
      rw [endOfChunks_nil] at hbefore
      have hzeros : i < alignUp c.align x - x := by omega
      have hstop : c.slot.after x = alignUp c.align x + c.bytes.length := rfl
      rw [List.getD_append _ _ _ _ (by omega), Chunk.placed,
        List.getD_append _ _ _ _ (by rw [List.length_replicate]; exact hzeros), List.getD_replicate _ hzeros]
    · -- behind it
      rw [endOfChunks_nil] at hafter
      have hrest : x + i = c.slot.after x + (i - (c.placed x).length) := by omega
      rw [List.getD_append_right _ _ _ _ (by omega)]
      refine ih fun before d after hcs => ?_
      rw [← hrest]
      exact h (c :: before) d after (congrArg (c :: ·) hcs)

/-- The body holds the chunks from the position `x` on. -/
def Holds (body : List UInt8) (x : ℕ) (cs : List Chunk) : Prop :=
  x ≤ body.length ∧ ∃ rest, body.drop x = encode x cs ++ rest

namespace Holds

variable {body : List UInt8} {x : ℕ} {c : Chunk} {cs : List Chunk}

theorem of_encode (cs : List Chunk) : Holds (encode 0 cs) 0 cs :=
  ⟨Nat.zero_le _, [], by simp⟩

theorem end_le (h : Holds body x cs) : endOfChunks cs x ≤ body.length := by
  obtain ⟨hx, rest, hrest⟩ := h
  have hlen := congrArg List.length hrest
  rw [List.length_drop, List.length_append, encode_length] at hlen
  have := le_endOfChunks cs x
  omega

theorem append_iff (cs ds : List Chunk) :
    Holds body x (cs ++ ds) ↔ Holds body x cs ∧ Holds body (endOfChunks cs x) ds := by
  constructor
  · rintro ⟨hx, rest, hrest⟩
    rw [encode_append, List.append_assoc] at hrest
    have hfirst : Holds body x cs := ⟨hx, _, hrest⟩
    refine ⟨hfirst, hfirst.end_le, rest, ?_⟩
    have hle := le_endOfChunks cs x
    have hsplit : body.drop (endOfChunks cs x) = (body.drop x).drop (encode x cs).length := by
      rw [List.drop_drop, encode_length]
      congr 1
      omega
    rw [hsplit, hrest, List.drop_left]
  · rintro ⟨⟨hx, rest, hrest⟩, -, rest', hrest'⟩
    refine ⟨hx, rest', ?_⟩
    have hle := le_endOfChunks cs x
    have hsplit : (body.drop x).drop (encode x cs).length = body.drop (endOfChunks cs x) := by
      rw [List.drop_drop, encode_length]
      congr 1
      omega
    rw [encode_append, List.append_assoc, ← hrest', ← hsplit, hrest, List.drop_left]

theorem head (h : Holds body x (c :: cs)) :
    c.slot.after x ≤ body.length ∧ ∃ rest, body.drop (alignUp c.align x) = c.bytes ++ rest := by
  have hsingle := ((append_iff [c] cs).1 h).1
  refine ⟨hsingle.end_le, ?_⟩
  obtain ⟨hx, rest, hrest⟩ := hsingle
  refine ⟨rest, ?_⟩
  have hle := le_alignUp c.align x
  have hsplit : body.drop (alignUp c.align x) = (body.drop x).drop (alignUp c.align x - x) := by
    rw [List.drop_drop]
    congr 1
    omega
  rw [hsplit, hrest, encode, encode, List.append_nil, Chunk.placed, List.append_assoc,
    List.drop_left' (by simp)]

end Holds

end OpenRtdds.Lib
