import Preflight.Proofs.Encoding.Utf8

/-!
# Reading bytes that may be ill-formed

A reader that refuses nothing puts the replacement character in the place of
what is ill-formed.  How far an ill-formed sequence goes is a matter of taste,
so `ReadsReplacing` is a relation: it allows every way to cut such a sequence in
which no character begins.

* `ReadsReplacing.decode_cases`: well-formed bytes are read as their text, and
  of others every reading holds the replacement character.
* `exists_readsReplacing`: all bytes can be read.
-/

namespace Preflight.Utf8

/-- Stands for bytes that are ill-formed. -/
def replacement : Char := '\uFFFD'

/-- Some bytes, and the text that a reader makes of them who replaces ill-formed
sequences. -/
inductive ReadsReplacing : List UInt8 → List Char → Prop where
  | nil : ReadsReplacing [] []
  | char (c : Char) {bytes : List UInt8} {text : List Char}
      (h : ReadsReplacing bytes text) :
      ReadsReplacing (encodeChar c ++ bytes) (c :: text)
  /-- At no byte of an ill-formed sequence the bytes of a character begin. -/
  | illFormed {bad bytes : List UInt8} {text : List Char} (hne : bad ≠ [])
      (hbad : ∀ skipped rest, bad = skipped ++ rest → rest ≠ [] →
        ∀ c, ¬encodeChar c <+: rest ++ bytes)
      (h : ReadsReplacing bytes text) :
      ReadsReplacing (bad ++ bytes) (replacement :: text)

theorem encodeChar_ne_nil (c : Char) : encodeChar c ≠ [] := by
  rcases encodeChar_shape c with ⟨_, hc⟩ | ⟨_, _, hc⟩ | ⟨_, _, _, hc⟩ | ⟨_, _, _, _, hc⟩
  all_goals
    rw [hc]
    exact List.cons_ne_nil _ _

/-- Bytes that are no text do not begin with a character. -/
theorem decode_eq_none_of_illFormed {bytes : List UInt8} (hne : bytes ≠ [])
    (h : ∀ c, ¬encodeChar c <+: bytes) : decode bytes = none := by
  cases hdecode : decode bytes with
  | none => rfl
  | some text =>
    have hbytes := eq_encode_of_decode hdecode
    cases text with
    | nil => exact absurd hbytes hne
    | cons c text =>
      rw [encode, List.flatMap_cons] at hbytes
      exact absurd ⟨_, hbytes.symm⟩ (h c)

/-- A reading of well-formed bytes is their text, and a reading of other bytes holds
the replacement character. -/
theorem ReadsReplacing.decode_cases {bytes : List UInt8} {text : List Char}
    (h : ReadsReplacing bytes text) :
    decode bytes = some text ∨ decode bytes = none ∧ replacement ∈ text := by
  induction h with
  | nil => exact .inl rfl
  | char c _ ih =>
    rw [decode_encodeChar_append]
    rcases ih with hdecode | ⟨hdecode, hmem⟩
    · rw [hdecode]
      exact .inl rfl
    · rw [hdecode]
      exact .inr ⟨rfl, List.mem_cons_of_mem c hmem⟩
  | @illFormed bad bytes _ hne hbad _ _ =>
    have hfront : ∀ c, ¬encodeChar c <+: bad ++ bytes := hbad [] bad rfl hne
    have hsome : bad ++ bytes ≠ [] := List.append_ne_nil_of_left_ne_nil hne bytes
    exact .inr ⟨decode_eq_none_of_illFormed hsome hfront, List.mem_cons_self⟩

/-- All bytes can be read: a byte at which no character begins may be replaced on
its own. -/
theorem exists_readsReplacing (bytes : List UInt8) :
    ∃ text, ReadsReplacing bytes text := by
  by_cases hchar : ∃ c, encodeChar c <+: bytes
  · obtain ⟨c, rest, hsplit⟩ := hchar
    have hshorter : rest.length < bytes.length := by
      have hpos := List.length_pos_iff.mpr (encodeChar_ne_nil c)
      rw [← hsplit, List.length_append]
      omega
    obtain ⟨text, htext⟩ := exists_readsReplacing rest
    exact ⟨c :: text, hsplit ▸ .char c htext⟩
  · rw [not_exists] at hchar
    cases bytes with
    | nil => exact ⟨[], .nil⟩
    | cons b rest =>
      obtain ⟨text, htext⟩ := exists_readsReplacing rest
      refine ⟨replacement :: text, .illFormed (List.cons_ne_nil b []) ?_ htext⟩
      intro skipped more hsplit hne c
      -- The sequence is a single byte, so nothing of it has been skipped.
      obtain ⟨rfl, rfl⟩ : skipped = [] ∧ more = [b] := by
        rcases List.cons_eq_append_iff.mp hsplit with hnil | ⟨tail, -, hnil⟩
        · exact hnil
        · exact absurd (List.append_eq_nil_iff.mp hnil.symm).2 hne
      exact hchar c
termination_by bytes.length
decreasing_by
  · exact hshorter
  · exact Nat.lt_succ_self rest.length

end Preflight.Utf8
