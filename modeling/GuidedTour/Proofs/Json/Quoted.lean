import GuidedTour.Json.Printer
import GuidedTour.Proofs.Json.Grammar

namespace GuidedTour

/-!
# Reading and writing string literals

* `SpellsString.exists_reads` — a string literal is read to its closing quote, whatever follows;
* `exists_of_readString` — what is read is a string literal;
* `spellsString_quoted` — a text is written as a string literal that has this text.
-/

variable {s w rest : List Char}

/-! ### Reading -/

/-- The pieces of a string are read up to its quote. -/
theorem readPieces_of_spells {pieces : List StringPiece} (h : SpellsPieces w pieces)
    (done : List StringPiece) :
    readPieces done (w ++ '"' :: rest) = some (done.reverse ++ pieces, rest) := by
  induction h generalizing done with
  | nil => simp [readPieces]
  | char hcontrol hquote hbackslash _ ih =>
    rw [List.cons_append, readPieces]
    · simp [Nat.not_lt.mpr hcontrol, ih]
    all_goals simp [hquote, hbackslash]
  | @escape letter _ _ _ hletter _ ih =>
    -- The reader tries code units first.
    have hu : letter ≠ 'u' := by
      rintro rfl
      simp [escapedChar?] at hletter
    rw [List.cons_append, List.cons_append, readPieces]
    · simp [hletter, ih]
    · simp [hu]
  | unit hunit _ ih => simp [readPieces, hunit, ih]

/-- What is read as pieces are pieces, up to a quote. -/
theorem exists_of_readPieces {done pieces : List StringPiece}
    (h : readPieces done s = some (pieces, rest)) :
    ∃ w ps, s = w ++ '"' :: rest ∧ SpellsPieces w ps ∧ pieces = done.reverse ++ ps := by
  fun_induction readPieces done s with
  | case1 => cases h
  | case2 done s =>
    obtain ⟨rfl, rfl⟩ := Prod.mk.inj (Option.some.inj h)
    exact ⟨[], [], rfl, .nil, by simp⟩
  | case3 done a b c d s n hunit ih =>
    obtain ⟨w, ps, rfl, hw, rfl⟩ := ih h
    exact ⟨_, _, rfl, .unit hunit hw, by simp⟩
  | case4 => cases h
  | case5 done letter s _ c hletter ih =>
    obtain ⟨w, ps, rfl, hw, rfl⟩ := ih h
    exact ⟨_, _, rfl, .escape hletter hw, by simp⟩
  | case6 => cases h
  | case7 => cases h
  | case8 => cases h
  | case9 done c s hquote _ hescape hend hcontrol ih =>
    obtain ⟨w, ps, rfl, hw, rfl⟩ := ih h
    -- A backslash would have been read as the start of an escape.
    have hbackslash : c ≠ '\\' := fun hc => by
      obtain ⟨d, t, hs⟩ : ∃ d t, w ++ '"' :: rest = d :: t :=
        List.exists_cons_of_ne_nil (by simp)
      exact hescape d t hc hs
    exact ⟨_, _, rfl, .char (Nat.not_lt.mp hcontrol) hquote hbackslash hw, by simp⟩

/-- A string literal begins with a quote, and from there it is read to its closing quote. -/
theorem SpellsString.exists_reads {text : Option String} (h : SpellsString w text) :
    ∃ t, w = '"' :: t ∧ ∀ rest, readString (t ++ rest) = some (text, rest) := by
  obtain ⟨h⟩ := h
  exact ⟨_, rfl, fun rest => by simp [readString, readPieces_of_spells h]⟩

/-- What is read after a quote is the rest of a string literal. -/
theorem exists_of_readString {text : Option String} (h : readString s = some (text, rest)) :
    ∃ w, s = w ++ rest ∧ SpellsString ('"' :: w) text := by
  simp only [readString, Option.map_eq_some_iff, Prod.exists] at h
  obtain ⟨pieces, rest', hread, htext⟩ := h
  obtain ⟨rfl, rfl⟩ := Prod.mk.inj htext
  obtain ⟨w, ps, rfl, hw, rfl⟩ := exists_of_readPieces hread
  exact ⟨w ++ ['"'], by simp, .quoted hw⟩

/-! ### Writing -/

theorem joinPieces_char (c : Char) (done : List Char) (pieces : List StringPiece) :
    joinPieces done (.char c :: pieces) = joinPieces (c :: done) pieces := by
  rw [joinPieces]

/-- A unit below the surrogates is joined as its character. -/
theorem joinPieces_unit {n : Nat} (h : n < 0xD800) (done : List Char) (pieces : List StringPiece) :
    joinPieces done (.unit n :: pieces) = joinPieces (Char.ofNat n :: done) pieces := by
  have hhigh : isHighHalf n = false := by simp [isHighHalf]; omega
  have hlow : isLowHalf n = false := by simp [isLowHalf]; omega
  cases pieces with
  | nil => simp [joinPieces, hhigh, hlow]
  | cons piece rest =>
    cases piece with
    | char c => simp [joinPieces, hhigh, hlow]
    | unit m => simp [joinPieces, hhigh, hlow]

/-- The escape of a control character is read as its number. -/
theorem hexUnit?_control : ∀ n < 32,
    hexUnit? '0' '0' (Json.hexDigit (n / 16)) (Json.hexDigit (n % 16)) = some n := by
  decide

/-- A character is written behind a backslash, as a code unit or as itself. -/
theorem escapeChar_cases (c : Char) :
    (∃ letter, escapedChar? letter = some c ∧ Json.escapeChar c = ['\\', letter]) ∨
      (c.toNat < 32 ∧ Json.escapeChar c =
        ['\\', 'u', '0', '0', Json.hexDigit (c.toNat / 16), Json.hexDigit (c.toNat % 16)]) ∨
      (32 ≤ c.toNat ∧ c ≠ '"' ∧ c ≠ '\\' ∧ Json.escapeChar c = [c]) := by
  by_cases h : c ∈ ['"', '\\', '\x08', '\x0c', '\n', '\r', '\t']
  · simp only [List.mem_cons, List.not_mem_nil, or_false] at h
    -- Which letter it is can be read off what is written.
    rcases h with rfl | rfl | rfl | rfl | rfl | rfl | rfl <;> exact .inl ⟨_, by rfl, rfl⟩
  · simp only [List.mem_cons, List.not_mem_nil, or_false, not_or] at h
    by_cases hcontrol : c.toNat < 32
    · exact .inr (.inl ⟨hcontrol, by simp [Json.escapeChar, h, hcontrol]⟩)
    · exact .inr (.inr ⟨Nat.not_lt.mp hcontrol, h.1, h.2.1, by simp [Json.escapeChar, h, hcontrol]⟩)

/-- A character is written as one piece, which stands for the character. -/
theorem exists_piece_escapeChar (c : Char) : ∃ piece,
    (∀ s pieces, SpellsPieces s pieces → SpellsPieces (Json.escapeChar c ++ s) (piece :: pieces)) ∧
      ∀ done pieces, joinPieces done (piece :: pieces) = joinPieces (c :: done) pieces := by
  rcases escapeChar_cases c with ⟨letter, hletter, heq⟩ | ⟨hcontrol, heq⟩ |
    ⟨hcontrol, hquote, hbackslash, heq⟩
  · exact ⟨.char c, fun s pieces h => heq ▸ .escape hletter h, joinPieces_char c⟩
  · refine ⟨.unit c.toNat, fun s pieces h => heq ▸ .unit (hexUnit?_control _ hcontrol) h, ?_⟩
    intro done pieces
    rw [joinPieces_unit (by omega), Char.ofNat_toNat]
  · exact ⟨.char c, fun s pieces h => heq ▸ .char hcontrol hquote hbackslash h, joinPieces_char c⟩

/-- An escaped text is spelled in pieces that are joined to the text. -/
theorem exists_pieces_escape (s : List Char) : ∃ pieces, SpellsPieces (Json.escape s) pieces ∧
    ∀ done, joinPieces done pieces = some (done.reverse ++ s) := by
  induction s with
  | nil => exact ⟨[], .nil, fun done => by simp [joinPieces]⟩
  | cons c s ih =>
    obtain ⟨pieces, hspells, hjoin⟩ := ih
    obtain ⟨piece, hpiece, hpush⟩ := exists_piece_escapeChar c
    exact ⟨piece :: pieces, hpiece _ _ hspells, fun done => by simp [hpush, hjoin]⟩

/-- A text is written as a string literal that has this text. -/
theorem spellsString_quoted (s : String) : SpellsString (Json.quoted s) (some s) := by
  obtain ⟨pieces, hspells, hjoin⟩ := exists_pieces_escape s.toList
  simpa [Json.quoted, hjoin] using SpellsString.quoted hspells

end GuidedTour
