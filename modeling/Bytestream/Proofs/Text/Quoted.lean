import Mathlib
import Bytestream.Text.Quoted

/-!
# Reading quoted text back

Quoted text can be read back, whatever stands behind it.  Every character is spelled on its own: as
itself, by a letter behind a backslash, or by its code point.  No spelling is the beginning of
another, and none starts with the quote that ends the text, so both the characters and the end of
the text can be found.  Which characters are spelled by their code point is of no importance here.
-/

namespace Bytestream.Text

/-! ### Pieces whose end can be found -/

/-- Whether a value can be read off its text, whatever stands behind the text. -/
def SelfDelimiting {α : Type} (text : α → List Char) : Prop :=
  ∀ ⦃a a' : α⦄ ⦃rest rest' : List Char⦄,
    text a ++ rest = text a' ++ rest' → a = a' ∧ rest = rest'

theorem SelfDelimiting.prepend {α : Type} {text : α → List Char} (htext : SelfDelimiting text)
    (front : List Char) : SelfDelimiting fun a => front ++ text a := by
  intro a a' rest rest' heq
  rw [List.append_assoc, List.append_assoc] at heq
  exact htext (List.append_cancel_left heq)

/-- A row of pieces up to a mark with which no piece starts. -/
theorem SelfDelimiting.flatMap_append {α : Type} {piece : α → List Char}
    (hpiece : SelfDelimiting piece) {mark : Char}
    (hhead : ∀ a, ∃ c ∈ (piece a).head?, c ≠ mark) :
    SelfDelimiting fun row : List α => row.flatMap piece ++ [mark] := by
  have hapart : ∀ (a : α) (back rest : List Char), piece a ++ back ≠ mark :: rest := by
    intro a back rest heq
    obtain ⟨c, hc, hmark⟩ := hhead a
    have hfirst : (piece a ++ back).head? = some mark := by rw [heq, List.head?_cons]
    rw [List.head?_append, Option.mem_def.mp hc] at hfirst
    exact hmark (Option.some.inj hfirst)
  intro row row' rest rest' heq
  simp only [List.append_assoc, List.singleton_append] at heq
  induction row generalizing row' with
  | nil =>
      cases row' with
      | nil => exact ⟨rfl, List.tail_eq_of_cons_eq heq⟩
      | cons a' row' =>
          rw [List.flatMap_cons, List.append_assoc] at heq
          exact absurd heq.symm (hapart a' _ rest)
  | cons a row ih =>
      cases row' with
      | nil =>
          rw [List.flatMap_cons, List.append_assoc] at heq
          exact absurd heq (hapart a _ rest')
      | cons a' row' =>
          rw [List.flatMap_cons, List.flatMap_cons, List.append_assoc, List.append_assoc] at heq
          obtain ⟨rfl, hback⟩ := hpiece heq
          obtain ⟨rfl, hrest⟩ := ih hback
          exact ⟨rfl, hrest⟩

/-! ### Hexadecimal digits -/

theorem digitChar_inj {m n : Nat} (hm : m < 16) (hn : n < 16)
    (hdigit : m.digitChar = n.digitChar) : m = n := by
  have hdigits : ∀ i j : Fin 16, Nat.digitChar i = Nat.digitChar j → i = j := by decide
  exact congrArg Fin.val (hdigits ⟨m, hm⟩ ⟨n, hn⟩ hdigit)

theorem toDigits_inj {m n : Nat} (hdigits : Nat.toDigits 16 m = Nat.toDigits 16 n) : m = n := by
  induction m using Nat.strongRecOn generalizing n with
  | ind m ih =>
      rcases Nat.lt_or_ge m 16 with hm | hm <;> rcases Nat.lt_or_ge n 16 with hn | hn
      · rw [Nat.toDigits_of_lt_base hm, Nat.toDigits_of_lt_base hn, List.singleton_inj] at hdigits
        exact digitChar_inj hm hn hdigits
      · rw [Nat.toDigits_of_lt_base hm, Nat.toDigits_of_base_le (by decide) hn] at hdigits
        have hfront : [] = Nat.toDigits 16 (n / 16) := List.append_inj_left' hdigits rfl
        exact absurd hfront.symm Nat.toDigits_ne_nil
      · rw [Nat.toDigits_of_base_le (by decide) hm, Nat.toDigits_of_lt_base hn] at hdigits
        have hfront : Nat.toDigits 16 (m / 16) = [] := List.append_inj_left' hdigits rfl
        exact absurd hfront Nat.toDigits_ne_nil
      · rw [Nat.toDigits_of_base_le (by decide) hm, Nat.toDigits_of_base_le (by decide) hn]
          at hdigits
        obtain ⟨hfront, hlast⟩ := List.append_inj' hdigits rfl
        have hdiv := ih (m / 16) (by omega) hfront
        have hmod := digitChar_inj (Nat.mod_lt m (by decide)) (Nat.mod_lt n (by decide))
          (List.singleton_inj.mp hlast)
        omega

/-- The digits of a number do not run into the brace behind them. -/
theorem brace_notMem_toDigits (n : Nat) : '\x7d' ∉ Nat.toDigits 16 n := by
  induction n using Nat.strongRecOn with
  | ind n ih =>
      rcases Nat.lt_or_ge n 16 with hn | hn
      · rw [Nat.toDigits_of_lt_base hn, List.mem_singleton]
        exact (Nat.digitChar_ne '\x7d' (by decide)).symm
      · rw [Nat.toDigits_of_base_le (by decide) hn, List.mem_append, List.mem_singleton, not_or]
        exact ⟨ih (n / 16) (by omega), (Nat.digitChar_ne '\x7d' (by decide)).symm⟩

theorem takeWhile_toDigits_append (n : Nat) (rest : List Char) :
    (Nat.toDigits 16 n ++ '\x7d' :: rest).takeWhile (· != '\x7d') = Nat.toDigits 16 n := by
  have hdigits : ∀ c ∈ Nat.toDigits 16 n, (c != '\x7d') = true := by
    intro c hc
    rw [bne_iff_ne]
    exact fun heq => brace_notMem_toDigits n (heq ▸ hc)
  rw [List.takeWhile_append_of_pos hdigits, List.takeWhile_cons_of_neg (by decide),
    List.append_nil]

theorem selfDelimiting_escapeCode : SelfDelimiting escapeCode := by
  intro c c' rest rest' heq
  simp only [escapeCode, List.append_assoc, List.singleton_append] at heq
  have hback := List.append_cancel_left heq
  have hdigits : Nat.toDigits 16 c.toNat = Nat.toDigits 16 c'.toNat := by
    rw [← takeWhile_toDigits_append c.toNat rest, hback, takeWhile_toDigits_append]
  rw [hdigits] at hback
  exact ⟨Char.toNat_inj.mp (toDigits_inj hdigits),
    List.tail_eq_of_cons_eq (List.append_cancel_left hback)⟩

/-! ### Spellings -/

/-- The characters that are written as a backslash and a letter, a digit or a sign. -/
def letterEscapes : List (Char × Char) :=
  [('"', '"'), ('\\', '\\'), ('\x00', '0'), ('\t', 't'), ('\r', 'r'), ('\n', 'n')]

/-- The ways of writing a character between double quotes.  A quote and a backslash have one, and
of the others it is left open which one is taken. -/
inductive Spells (c : Char) : List Char → Prop
  | itself (hquote : c ≠ '"') (hbackslash : c ≠ '\\') : Spells c [c]
  | letter {mark : Char} (hmark : (c, mark) ∈ letterEscapes) : Spells c ['\\', mark]
  | code (hquote : c ≠ '"') (hbackslash : c ≠ '\\') : Spells c (escapeCode c)

theorem spells_escape (c : Char) : Spells c (escape c) := by
  unfold escape
  split_ifs with hnull htab hreturn hnewline hquote hbackslash hinvisible
  · exact .letter (by rw [hnull]; decide)
  · exact .letter (by rw [htab]; decide)
  · exact .letter (by rw [hreturn]; decide)
  · exact .letter (by rw [hnewline]; decide)
  · exact .letter (by rw [hquote]; decide)
  · exact .letter (by rw [hbackslash]; decide)
  · exact .code hquote hbackslash
  · exact .itself hquote hbackslash

theorem eq_of_letter_eq {c c' mark : Char} (hmark : (c, mark) ∈ letterEscapes)
    (hmark' : (c', mark) ∈ letterEscapes) : c = c' := by
  have hletters : ∀ p ∈ letterEscapes, ∀ q ∈ letterEscapes, p.2 = q.2 → p.1 = q.1 := by decide
  exact hletters (c, mark) hmark (c', mark) hmark' rfl

theorem letter_ne_u {c mark : Char} (hmark : (c, mark) ∈ letterEscapes) : mark ≠ 'u' := by
  have hletters : ∀ p ∈ letterEscapes, p.2 ≠ 'u' := by decide
  exact hletters (c, mark) hmark

/-- A spelled character can be read back, and what stands behind it be found. -/
theorem Spells.append_inj {c c' : Char} {spelling spelling' rest rest' : List Char}
    (hspells : Spells c spelling) (hspells' : Spells c' spelling')
    (heq : spelling ++ rest = spelling' ++ rest') : c = c' ∧ rest = rest' := by
  cases hspells with
  | itself hquote hbackslash =>
      cases hspells' with
      | itself => exact List.cons.inj heq
      | letter => exact absurd (List.head_eq_of_cons_eq heq) hbackslash
      | code => exact absurd (List.head_eq_of_cons_eq heq) hbackslash
  | @letter mark hmark =>
      cases hspells' with
      | itself hquote' hbackslash' => exact absurd (List.head_eq_of_cons_eq heq).symm hbackslash'
      | @letter mark' hmark' =>
          obtain ⟨hletter, hrest⟩ := List.cons.inj (List.tail_eq_of_cons_eq heq)
          exact ⟨eq_of_letter_eq hmark (hletter ▸ hmark'), hrest⟩
      | code =>
          exact absurd (List.head_eq_of_cons_eq (List.tail_eq_of_cons_eq heq)) (letter_ne_u hmark)
  | code hquote hbackslash =>
      cases hspells' with
      | itself hquote' hbackslash' => exact absurd (List.head_eq_of_cons_eq heq).symm hbackslash'
      | @letter mark' hmark' =>
          have hletter := List.head_eq_of_cons_eq (List.tail_eq_of_cons_eq heq)
          exact absurd hletter.symm (letter_ne_u hmark')
      | code => exact selfDelimiting_escapeCode heq

/-- No spelling starts with the quote that ends the text. -/
theorem Spells.exists_head {c : Char} {spelling : List Char} (hspells : Spells c spelling) :
    ∃ first ∈ spelling.head?, first ≠ '"' := by
  cases hspells with
  | itself hquote hbackslash => exact ⟨c, rfl, hquote⟩
  | letter => exact ⟨'\\', rfl, by decide⟩
  | code => exact ⟨'\\', rfl, by decide⟩

theorem selfDelimiting_escape : SelfDelimiting escape :=
  fun c c' _ _ heq => (spells_escape c).append_inj (spells_escape c') heq

/-! ### Texts between quotes -/

theorem selfDelimiting_quoted : SelfDelimiting fun text : String => (quoted text).toList := by
  have hrow : SelfDelimiting fun characters : List Char => characters.flatMap escape ++ ['"'] :=
    selfDelimiting_escape.flatMap_append fun c => (spells_escape c).exists_head
  intro text text' rest rest' heq
  simp only [toList_quoted] at heq
  obtain ⟨hcharacters, hrest⟩ := hrow (List.tail_eq_of_cons_eq heq)
  exact ⟨String.toList_inj.mp hcharacters, hrest⟩

end Bytestream.Text
