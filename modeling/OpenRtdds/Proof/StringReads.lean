import OpenRtdds.Proof.CdrBuffer

/-!
# The two reads of a string

`read_string` copies the characters and their NUL to the caller, `read_string_view` hands over where they are.
Only the first one has a capacity to check.

* `CdrReader.storedLength?`: the length field at the cursor.
* `CdrReader.locateString_of_room`: a capacity of that length refuses nothing.
* `string_reads_agree`.
-/

namespace OpenRtdds

open Lib

namespace CdrReader

variable {r : CdrReader}

/-- The 32-bit length at the aligned cursor, when it can be read. -/
def storedLength? (r : CdrReader) : Option ℕ :=
  (r.locate 4 4).1.bind fun place => r.loadIntegralChecked place.1 4

/-- With room for the stored length, the capacity makes no difference. -/
theorem locateString_of_room (bound : ℕ) {capacity : ℕ}
    (h : ∀ length, r.storedLength? = some length → length ≤ capacity) :
    r.locateString bound (some capacity) = r.locateString bound none := by
  unfold locateString
  cases hplace : (r.locate 4 4).1 with
  | none => rfl
  | some place =>
    rw [Option.elim_some, Option.elim_some]
    refine Option.bind_congr fun length hlength => ?_
    have hle : length ≤ capacity := by
      refine h length ?_
      rw [storedLength?, hplace]
      exact hlength
    simp only [Option.any_some, Option.any_none, decide_eq_true_eq, gt_iff_lt, Nat.not_lt.2 hle, if_false,
      Bool.false_eq_true]

end CdrReader

open CdrReader

/-- **Copying and viewing string reads agree.** From every state that calls of a reader over any buffer lead
to, with a destination of at least the stored length: both reads fail, with the same error, and leave the
cursor and the variables of the caller; or both find the same characters, which a NUL follows, and move the
cursor behind it. The copy has the characters and the NUL, the view is where they are in the buffer. The view
of `Spec/Cdr`, which the codec reads by, agrees with both. -/
theorem string_reads_agree {buffer : Span} (hmachine : buffer.size ≤ uint64Max) {calls : List ReaderCall}
    {r : CdrReader} {outcomes : List ReadOutcome}
    (hrun : attempt CdrReader.perform (construct buffer) calls = some (r, outcomes))
    (destination : List UInt8) (bound data length length' : ℕ)
    (hroom : ∀ stored, r.storedLength? = some stored → stored ≤ destination.length) :
    (∃ error, r.readStringInto (.bytes destination) bound length =
        some ((false, .bytes destination, length), r.fail error) ∧
      r.readStringViewInto data bound length' = some ((false, data, length'), r.fail error) ∧
      r.readStringView bound = (none, r.fail error) ∧ (r.fail error).offset = r.offset) ∨
    ∃ start text, (buffer.data.drop start).take (text.length + 1) = text ++ [0] ∧
      r.readStringInto (.bytes destination) bound length =
        some ((true, .bytes (text ++ [0] ++ destination.drop (text.length + 1)), text.length),
          { r with offset := start + (text.length + 1) }) ∧
      r.readStringViewInto data bound length' =
        some ((true, start, text.length), { r with offset := start + (text.length + 1) }) ∧
      r.readStringView bound = (some text, { r with offset := start + (text.length + 1) }) := by
  obtain ⟨d, hd, hvalid, hbuffer⟩ := CdrReader.run_valid hmachine calls
  cases hrun.symm.trans hd
  have hlocate := locateString_of_room bound hroom
  unfold readStringInto readStringViewInto
  rw [if_neg (by exact Bool.false_ne_true)]
  change (∃ error, (r.locateString bound (some destination.length)).bind _ = _ ∧ _) ∨
    ∃ start text, _ ∧ (r.locateString bound (some destination.length)).bind _ = _ ∧ _
  rw [hlocate]
  rcases locateString_cases hvalid bound none with
    ⟨error, hfound, hview | ⟨c, hc, -⟩⟩ | ⟨start, text, -, -, hinside, -, -, htext, hfound, hview⟩
  · refine .inl ⟨error, ?_, ?_, hview, ?_⟩
    · rw [hfound]
      rfl
    · rw [hfound]
      rfl
    · rw [fail_eq]
  · cases hc
  · have hfits : text.length + 1 ≤ destination.length := by
      have hsome := hlocate.trans hfound
      rcases locateString_cases hvalid bound (some destination.length) with
        ⟨error, hrefused, -⟩ | ⟨start', text', -, -, -, -, hcapacity, -, hfound', -⟩
      · cases hsome.symm.trans hrefused
      · have hlength : text.length + 1 = text'.length + 1 :=
          congrArg Prod.snd (Option.some.inj (congrArg Prod.fst (Option.some.inj (hsome.symm.trans hfound'))))
        exact hlength.trans_le (hcapacity _ rfl)
    refine .inr ⟨start, text, hbuffer ▸ htext, ?_, ?_, hview⟩
    · have hstore : (Span.bytes destination).store 0 (text ++ [0]) =
          some (.bytes (text ++ [0] ++ destination.drop (text.length + 1))) := by
        rw [Span.store_eq rfl (by simpa [Span.size] using hfits)]
        simp [splice, Span.data]
      rw [hfound, Option.bind_some]
      dsimp only
      rw [Option.elim_some, loads_eq hinside, Option.bind_some, htext, hstore]
      rfl
    · rw [hfound]
      rfl

/-- The two reads of a string of one character. -/
theorem short_string_reads_agree :
    let r : CdrReader :=
      { buffer := .bytes [0, 1, 0, 0, 2, 0, 0, 0, 65, 0], offset := 4, origin := 4, initialized := true }
    r.storedLength? = some 2 ∧
      (r.readStringInto (.bytes [7, 7]) 10 0).map (fun d => (d.1.1, d.2)) =
        (r.readStringViewInto 0 10 0).map fun d => (d.1.1, d.2) := by
  intro r
  have hstored : r.storedLength? = some 2 := by decide
  have hrun : attempt CdrReader.perform (construct r.buffer) [.begin] = some (r, [⟨true, .begin, 4⟩]) := rfl
  refine ⟨hstored, ?_⟩
  rcases string_reads_agree (by decide) hrun [7, 7] 10 0 0 0
      (fun stored h => (Option.some.inj (hstored.symm.trans h)).ge) with
    ⟨error, hcopy, hview, -⟩ | ⟨start, text, -, hcopy, hview, -⟩
  · rw [hcopy, hview]
    rfl
  · rw [hcopy, hview]
    rfl

end OpenRtdds
