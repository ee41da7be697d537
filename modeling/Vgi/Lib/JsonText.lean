import Mathlib.Tactic.IntervalCases
import Vgi.Lib.Separator

/-! The compact JSON text of an array of strings and integers: what was written can be read off.
-/

namespace Vgi.Lib

open List

inductive JsonItem where
  | text (value : String)
  | number (value : Int)
deriving DecidableEq

namespace Json

def quotation : Char := Char.ofNat 34

def backslash : Char := Char.ofNat 92

def hexChar (digit : Nat) : Char := "0123456789abcdef".toList.getD digit '0'

/-- How a character stands in a string. -/
def escape (c : Char) : List Char :=
  if c = quotation then [backslash, quotation]
  else if c = backslash then [backslash, backslash]
  else if c = '\x08' then [backslash, 'b']
  else if c = '\x0c' then [backslash, 'f']
  else if c = '\n' then [backslash, 'n']
  else if c = '\r' then [backslash, 'r']
  else if c = '\t' then [backslash, 't']
  else if c.toNat < 32 then
    [backslash, 'u', '0', '0', hexChar (c.toNat / 16), hexChar (c.toNat % 16)]
  else [c]

def string (value : String) : List Char := quotation :: value.toList.flatMap escape ++ [quotation]

def item : JsonItem → List Char
  | .text value => string value
  | .number value => (toString value).toList

def items : List JsonItem → List Char
  | [] => [']']
  | [last] => item last ++ [']']
  | first :: rest => item first ++ ',' :: items rest

def array (list : List JsonItem) : List Char := '[' :: items list

def hexValue (c : Char) : Nat := "0123456789abcdef".toList.idxOf c

/-- Reads one character of a string. -/
def unescape : List Char → Option (Char × List Char)
  | c :: d :: rest =>
    if c ≠ backslash then some (c, d :: rest)
    else if d = 'b' then some ('\x08', rest)
    else if d = 'f' then some ('\x0c', rest)
    else if d = 'n' then some ('\n', rest)
    else if d = 'r' then some ('\r', rest)
    else if d = 't' then some ('\t', rest)
    else if d = 'u' then
      match rest with
      | _ :: _ :: high :: low :: rest => some (Char.ofNat (16 * hexValue high + hexValue low), rest)
      | _ => none
    else some (d, rest)
  | [c] => some (c, [])
  | [] => none

theorem unescape_control (n) (small : n < 32) (rest)
    : unescape (escape (Char.ofNat n) ++ rest) = some (Char.ofNat n, rest) := by
  interval_cases n <;> rfl

/-- The text of one character tells where it ends. -/
theorem unescape_escape (c rest) : unescape (escape c ++ rest) = some (c, rest) := by
  by_cases control : c.toNat < 32
  · have := unescape_control c.toNat control rest
    rwa [Char.ofNat_toNat] at this
  · by_cases quoted : c = quotation
    · subst quoted
      rfl
    · by_cases slash : c = backslash
      · subst slash
        rfl
      · have plain : escape c = [c] := by
          unfold escape
          have high (d : Char) (low : d.toNat < 32) : c ≠ d := fun same => control (same ▸ low)
          rw [if_neg quoted, if_neg slash, if_neg (high _ (by decide)), if_neg (high _ (by decide)),
            if_neg (high _ (by decide)), if_neg (high _ (by decide)), if_neg (high _ (by decide)),
            if_neg control]
        rw [plain]
        cases rest <;> simp [unescape, slash]

variable {rest tail : List Char} {s : String}

theorem escape_append_inj {c d} (same : escape c ++ rest = escape d ++ tail)
    : c = d ∧ rest = tail := by
  have read := congrArg unescape same
  rw [unescape_escape, unescape_escape] at read
  cases read
  exact ⟨rfl, rfl⟩

/-- No character begins with the quotation mark that ends the string. -/
theorem escape_append_ne_quotation {c} : escape c ++ rest ≠ quotation :: tail := by
  intro same
  by_cases quoted : c = quotation
  · subst quoted
    cases same
  · by_cases slashed : ∃ more, escape c = backslash :: more
    · obtain ⟨more, is⟩ := slashed
      rw [is] at same
      cases same
    · have plain : escape c = [c] := by
        unfold escape at slashed ⊢
        grind
      rw [plain] at same
      exact quoted (cons.inj same).1

theorem string_append_inj {t} (same : string s ++ rest = string t ++ tail)
    : s = t ∧ rest = tail := by
  have bodies (left right : List Char) (same : left.flatMap escape ++ quotation :: rest
      = right.flatMap escape ++ quotation :: tail) : left = right ∧ rest = tail := by
    induction left generalizing right with
    | nil =>
      cases right with
      | nil => exact ⟨rfl, (cons.inj same).2⟩
      | cons d right =>
        rw [flatMap_cons, append_assoc] at same
        exact absurd same.symm escape_append_ne_quotation
    | cons c left ih =>
      rw [flatMap_cons, append_assoc] at same
      cases right with
      | nil => exact absurd same escape_append_ne_quotation
      | cons d right =>
        rw [flatMap_cons, append_assoc] at same
        obtain ⟨rfl, more⟩ := escape_append_inj same
        obtain ⟨rfl, tails⟩ := ih right more
        exact ⟨rfl, tails⟩
  simp only [string, cons_append, append_assoc, cons.injEq, true_and] at same
  obtain ⟨chars, tails⟩ := bodies s.toList t.toList same
  exact ⟨String.toList_inj.mp chars, tails⟩

/-- What may stand after an element. -/
def Ends (rest : List Char) : Prop := ∃ tail, rest = ',' :: tail ∨ rest = ']' :: tail

theorem number_append_inj {m n : Int} (ends : Ends rest) (ends' : Ends tail)
    (same : (toString m).toList ++ rest = (toString n).toList ++ tail)
    : m = n ∧ rest = tail := by
  -- The first character that is neither a digit nor a sign ends the number.
  let part (c : Char) : Bool := c = '-' || c.isDigit
  have inside (n : Int) : ∀ c ∈ (toString n).toList, part c = true := by
    intro c member
    rcases isDigit_of_mem_int member with rfl | digit
    · rfl
    · simp [part, digit]
  have outside {rest : List Char} (ends : Ends rest) : rest.takeWhile part = [] := by
    obtain ⟨tail, rfl | rfl⟩ := ends <;> rfl
  have numbers := congrArg (takeWhile part) same
  rw [takeWhile_append_of_pos (inside m), takeWhile_append_of_pos (inside n),
    outside ends, outside ends', append_nil, append_nil] at numbers
  rw [numbers, append_cancel_left_eq] at same
  exact ⟨toString_int_inj numbers, same⟩

theorem string_ne_number {n : Int} (ends : Ends tail)
    : string s ++ rest ≠ (toString n).toList ++ tail := by
  intro same
  cases digits : (toString n).toList with
  | nil =>
    rw [digits] at same
    obtain ⟨more, rfl | rfl⟩ := ends <;> cases same
  | cons c more =>
    rw [digits] at same
    have member : c ∈ (toString n).toList := by
      rw [digits]
      exact mem_cons_self
    have first : quotation = c := (cons.inj same).1
    rcases isDigit_of_mem_int member with rfl | digit
    · cases first
    · rw [← first] at digit
      exact absurd digit (by decide)

/-- The text of an element tells where it ends. -/
theorem item_append_inj {left right} (ends : Ends rest) (ends' : Ends tail)
    (same : item left ++ rest = item right ++ tail)
    : left = right ∧ rest = tail := by
  cases left with
  | text s =>
    cases right with
    | text t =>
      obtain ⟨rfl, tails⟩ := string_append_inj same
      exact ⟨rfl, tails⟩
    | number n => exact absurd same (string_ne_number ends')
  | number m =>
    cases right with
    | text t => exact absurd same.symm (string_ne_number ends)
    | number n =>
      obtain ⟨rfl, tails⟩ := number_append_inj ends ends' same
      exact ⟨rfl, tails⟩

/-- Arrays of one length have different texts. -/
theorem array_inj {left right} (long : left.length = right.length)
    (same : array left = array right) : left = right := by
  have texts : items left = items right := (cons.inj same).2
  clear same
  induction left generalizing right with
  | nil => exact (length_eq_zero_iff.mp long.symm).symm
  | cons first rest ih =>
    obtain ⟨first', rest', rfl⟩ := exists_cons_of_length_eq_add_one long.symm
    have shorter : rest.length = rest'.length := Nat.succ.inj long
    cases rest with
    | nil =>
      cases length_eq_zero_iff.mp shorter.symm
      obtain ⟨rfl, _⟩ := item_append_inj ⟨[], .inr rfl⟩ ⟨[], .inr rfl⟩ texts
      rfl
    | cons second rest =>
      obtain ⟨second', rest', rfl⟩ := exists_cons_of_length_eq_add_one shorter.symm
      obtain ⟨rfl, tails⟩ := item_append_inj ⟨_, .inl rfl⟩ ⟨_, .inl rfl⟩ texts
      rw [ih shorter (cons.inj tails).2]

end Json

end Vgi.Lib
