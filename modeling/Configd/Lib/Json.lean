import Mathlib

/-!
# JSON documents and their text

A JSON document of truth values, strings, arrays and objects, and the indented text a standard
encoder makes of it: two blanks for each level, a line for each item, and escaped characters.

Two documents whose texts begin alike, whatever follows them, are equal (`render_cancel`), so a
text is the text of one document (`text_injective`).  For strings this is a left inverse of the
escapes; for arrays and objects the character after an item tells whether another one follows.
-/

namespace Configd
namespace Lib

/-- A JSON document without numbers. -/
inductive Json
  | bool (value : Bool)
  | str (value : String)
  | arr (items : List Json)
  | obj (fields : List (String × Json))

namespace Json

/-! ## Strings -/

/-- The characters with an escape of one letter. -/
def shortEscape (c : Char) : Option Char :=
  if c = '"' then some '"'
  else if c = '\\' then some '\\'
  else if c = '\n' then some 'n'
  else if c = '\r' then some 'r'
  else if c = '\t' then some 't'
  else if c.toNat = 8 then some 'b'
  else if c.toNat = 12 then some 'f'
  else none

/-- The characters that are written as a number: the other control characters, those
with a meaning in HTML, and the two line separators. -/
def needsNumber (c : Char) : Bool :=
  c.toNat < 0x20 || c = '<' || c = '>' || c = '&' || c.toNat = 0x2028 || c.toNat = 0x2029

/-- Four hexadecimal digits. -/
def hex4 (n : Nat) : List Char :=
  [Nat.digitChar (n / 4096 % 16), Nat.digitChar (n / 256 % 16), Nat.digitChar (n / 16 % 16),
    Nat.digitChar (n % 16)]

/-- A character inside a JSON string. -/
def escape (c : Char) : List Char :=
  match shortEscape c with
  | some letter => ['\\', letter]
  | none => if needsNumber c then '\\' :: 'u' :: hex4 c.toNat else [c]

def quote (s : String) : List Char :=
  '"' :: (s.toList.flatMap escape ++ ['"'])

/-- The value of a hexadecimal digit. -/
def digitValue (c : Char) : Nat :=
  if c.toNat < 58 then c.toNat - 48 else c.toNat - 87

/-- The character an escape of one letter stands for. -/
def letterValue (letter : Char) : Char :=
  if letter = 'n' then '\n'
  else if letter = 'r' then '\r'
  else if letter = 't' then '\t'
  else if letter = 'b' then Char.ofNat 8
  else if letter = 'f' then Char.ofNat 12
  else letter

/-- Read one character of a JSON string. -/
def unescape : List Char → Option (Char × List Char)
  | '\\' :: 'u' :: a :: b :: c :: d :: rest =>
    some (Char.ofNat (4096 * digitValue a + 256 * digitValue b + 16 * digitValue c +
      digitValue d), rest)
  | '\\' :: letter :: rest => some (letterValue letter, rest)
  | c :: rest => some (c, rest)
  | [] => none

theorem ofNat_hex4 {n : Nat} (hn : n < 0x20 ∨ n = 60 ∨ n = 62 ∨ n = 38 ∨ n = 0x2028 ∨ n = 0x2029)
    (rest : List Char) :
    unescape ('\\' :: 'u' :: (hex4 n ++ rest)) = some (Char.ofNat n, rest) := by
  have hsmall : ∀ n < 0x20, unescape ('\\' :: 'u' :: (hex4 n ++ rest)) =
      some (Char.ofNat n, rest) := by
    intro n hn
    interval_cases n <;> rfl
  rcases hn with hn | rfl | rfl | rfl | rfl | rfl
  · exact hsmall n hn
  all_goals rfl

theorem ofNat_toNat_of_eq {c : Char} {n : Nat} (hn : c.toNat = n) : c = Char.ofNat n := by
  rw [← hn, Char.ofNat_toNat]

theorem unescape_cons {c : Char} (hc : c ≠ '\\') (rest : List Char) :
    unescape (c :: rest) = some (c, rest) := by
  unfold unescape
  split
  · simp_all
  · simp_all
  · simp_all
  · simp_all

/-- **Reading undoes escaping.** -/
theorem unescape_escape (c : Char) (rest : List Char) :
    unescape (escape c ++ rest) = some (c, rest) := by
  unfold escape
  cases hshort : shortEscape c with
  | some letter =>
    unfold shortEscape at hshort
    split_ifs at hshort with hquote hback hnewline hreturn htab hbell hfeed
    all_goals rw [← Option.some.inj hshort]
    · rw [hquote]
      rfl
    · rw [hback]
      rfl
    · rw [hnewline]
      rfl
    · rw [hreturn]
      rfl
    · rw [htab]
      rfl
    · rw [ofNat_toNat_of_eq hbell]
      rfl
    · rw [ofNat_toNat_of_eq hfeed]
      rfl
  | none =>
    simp only
    split
    · rename_i hnumber
      have hvalue : c.toNat < 0x20 ∨ c.toNat = 60 ∨ c.toNat = 62 ∨ c.toNat = 38 ∨
          c.toNat = 0x2028 ∨ c.toNat = 0x2029 := by
        simp only [needsNumber, Bool.or_eq_true, decide_eq_true_eq] at hnumber
        rcases hnumber with ((((hlow | rfl) | rfl) | rfl) | hline) | hline
        · exact Or.inl hlow
        · exact Or.inr (Or.inl rfl)
        · exact Or.inr (Or.inr (Or.inl rfl))
        · exact Or.inr (Or.inr (Or.inr (Or.inl rfl)))
        · simp [hline]
        · simp [hline]
      rw [List.cons_append, List.cons_append, ofNat_hex4 hvalue rest, Char.ofNat_toNat]
    · have hback : c ≠ '\\' := by
        rintro rfl
        simp [shortEscape] at hshort
      exact unescape_cons hback rest

theorem escape_cancel {c c' : Char} {rest rest' : List Char}
    (heq : escape c ++ rest = escape c' ++ rest') : c = c' ∧ rest = rest' := by
  have hread := congrArg unescape heq
  rw [unescape_escape, unescape_escape, Option.some.injEq, Prod.mk.injEq] at hread
  exact hread

theorem escape_append_ne (c : Char) (rest rest' : List Char) : escape c ++ rest ≠ '"' :: rest' := by
  unfold escape
  cases hshort : shortEscape c with
  | some letter => simp
  | none =>
    simp only
    split
    · simp
    · intro heq
      rw [List.singleton_append, List.cons.injEq] at heq
      rw [heq.1] at hshort
      simp [shortEscape] at hshort

theorem quote_cancel {s s' : String} {rest rest' : List Char}
    (heq : quote s ++ rest = quote s' ++ rest') : s = s' ∧ rest = rest' := by
  have hchars : ∀ cs cs' : List Char,
      cs.flatMap escape ++ '"' :: rest = cs'.flatMap escape ++ '"' :: rest' →
        cs = cs' ∧ rest = rest' := by
    intro cs
    induction cs with
    | nil =>
      intro cs' heq
      cases cs' with
      | nil => simpa using heq
      | cons c' cs' =>
        rw [List.flatMap_cons, List.append_assoc] at heq
        exact absurd heq.symm (escape_append_ne c' _ _)
    | cons c cs ih =>
      intro cs' heq
      rw [List.flatMap_cons, List.append_assoc] at heq
      cases cs' with
      | nil => exact absurd heq (escape_append_ne c _ _)
      | cons c' cs' =>
        rw [List.flatMap_cons, List.append_assoc] at heq
        obtain ⟨rfl, htail⟩ := escape_cancel heq
        obtain ⟨rfl, hrest⟩ := ih cs' htail
        exact ⟨rfl, hrest⟩
  have hboth := hchars s.toList s'.toList (by simpa [quote] using heq)
  exact ⟨String.toList_inj.mp hboth.1, hboth.2⟩

/-! ## Documents -/

/-- The start of a line at this level. -/
def newline (level : Nat) : List Char :=
  '\n' :: List.replicate (2 * level) ' '

mutual

/-- The text of a document at this level. -/
def render (level : Nat) : Json → List Char
  | .bool true => ['t', 'r', 'u', 'e']
  | .bool false => ['f', 'a', 'l', 's', 'e']
  | .str value => quote value
  | .arr [] => ['[', ']']
  | .arr (item :: rest) =>
    '[' :: (newline (level + 1) ++ (render (level + 1) item ++ renderItems level rest))
  | .obj [] => ['\x7b', '\x7d']
  | .obj ((name, value) :: rest) =>
    '\x7b' :: (newline (level + 1) ++ (quote name ++ (':' :: ' ' ::
      (render (level + 1) value ++ renderFields level rest))))

/-- The further items of an array, and its end. -/
def renderItems (level : Nat) : List Json → List Char
  | [] => newline level ++ [']']
  | item :: rest =>
    ',' :: (newline (level + 1) ++ (render (level + 1) item ++ renderItems level rest))

/-- The further fields of an object, and its end. -/
def renderFields (level : Nat) : List (String × Json) → List Char
  | [] => newline level ++ ['\x7d']
  | (name, value) :: rest =>
    ',' :: (newline (level + 1) ++ (quote name ++ (':' :: ' ' ::
      (render (level + 1) value ++ renderFields level rest))))

end

mutual

/-- **The text of a document is read to its end and no further.** -/
theorem render_cancel (level : Nat) {rest rest' : List Char} :
    ∀ {doc doc' : Json}, render level doc ++ rest = render level doc' ++ rest' →
      doc = doc' ∧ rest = rest'
  | .bool value, doc', heq => by
    cases value <;> rcases doc' with (_ | _) | _ | (_ | _) | (_ | _) <;>
      simp_all [render, quote]
  | .str value, doc', heq => by
    rcases doc' with (_ | _) | value' | (_ | _) | (_ | ⟨⟨_, _⟩, _⟩)
    case str =>
      simp only [render] at heq
      obtain ⟨rfl, hrest⟩ := quote_cancel heq
      exact ⟨rfl, hrest⟩
    all_goals simp [render, quote] at heq
  | .arr [], doc', heq => by
    rcases doc' with (_ | _) | _ | (_ | _) | (_ | ⟨⟨_, _⟩, _⟩) <;>
      simp_all [render, quote, newline]
  | .arr (item :: items), doc', heq => by
    rcases doc' with (_ | _) | _ | (_ | ⟨item', items'⟩) | (_ | ⟨⟨_, _⟩, _⟩)
    case arr.cons =>
      simp only [render, List.cons_append, List.append_assoc, List.cons.injEq, true_and,
        List.append_cancel_left_eq] at heq
      obtain ⟨rfl, htail⟩ := render_cancel (level + 1) heq
      obtain ⟨rfl, hrest⟩ := renderItems_cancel level htail
      exact ⟨rfl, hrest⟩
    all_goals simp [render, quote, newline] at heq
  | .obj [], doc', heq => by
    rcases doc' with (_ | _) | _ | (_ | _) | (_ | ⟨⟨_, _⟩, _⟩) <;>
      simp_all [render, quote, newline]
  | .obj ((name, value) :: fields), doc', heq => by
    rcases doc' with (_ | _) | _ | (_ | _) | (_ | ⟨⟨name', value'⟩, fields'⟩)
    case obj.cons =>
      simp only [render, List.cons_append, List.append_assoc, List.cons.injEq, true_and,
        List.append_cancel_left_eq] at heq
      obtain ⟨rfl, hvalue⟩ := quote_cancel heq
      simp only [List.cons.injEq, true_and] at hvalue
      obtain ⟨rfl, htail⟩ := render_cancel (level + 1) hvalue
      obtain ⟨rfl, hrest⟩ := renderFields_cancel level htail
      exact ⟨rfl, hrest⟩
    all_goals simp [render, quote, newline] at heq

theorem renderItems_cancel (level : Nat) {rest rest' : List Char} :
    ∀ {items items' : List Json},
      renderItems level items ++ rest = renderItems level items' ++ rest' →
        items = items' ∧ rest = rest'
  | [], items', heq => by
    cases items' with
    | nil => simpa [renderItems] using heq
    | cons item' items' => simp [renderItems, newline] at heq
  | item :: items, items', heq => by
    cases items' with
    | nil => simp [renderItems, newline] at heq
    | cons item' items' =>
      simp only [renderItems, List.cons_append, List.append_assoc, List.cons.injEq, true_and,
        List.append_cancel_left_eq] at heq
      obtain ⟨rfl, htail⟩ := render_cancel (level + 1) heq
      obtain ⟨rfl, hrest⟩ := renderItems_cancel level htail
      exact ⟨rfl, hrest⟩

theorem renderFields_cancel (level : Nat) {rest rest' : List Char} :
    ∀ {fields fields' : List (String × Json)},
      renderFields level fields ++ rest = renderFields level fields' ++ rest' →
        fields = fields' ∧ rest = rest'
  | [], fields', heq => by
    cases fields' with
    | nil => simpa [renderFields] using heq
    | cons field' fields' => simp [renderFields, newline] at heq
  | (name, value) :: fields, fields', heq => by
    cases fields' with
    | nil => simp [renderFields, newline] at heq
    | cons field' fields' =>
      simp only [renderFields, List.cons_append, List.append_assoc, List.cons.injEq, true_and,
        List.append_cancel_left_eq] at heq
      obtain ⟨rfl, hvalue⟩ := quote_cancel heq
      simp only [List.cons.injEq, true_and] at hvalue
      obtain ⟨rfl, htail⟩ := render_cancel (level + 1) hvalue
      obtain ⟨rfl, hrest⟩ := renderFields_cancel level htail
      exact ⟨rfl, hrest⟩

end

def text (doc : Json) : String :=
  String.ofList (render 0 doc)

/-- **A text is the text of one document.** -/
theorem text_injective : Function.Injective text := by
  intro doc doc' heq
  have hlist : render 0 doc = render 0 doc' := by
    have := congrArg String.toList heq
    simpa [text] using this
  exact (render_cancel 0 (congrArg (· ++ []) hlist)).1

example : text (.obj [("a", .arr [.str "x\"", .bool true])]) =
    "\x7b\n  \"a\": [\n    \"x\\\"\",\n    true\n  ]\n\x7d" := by decide +kernel

end Json
end Lib
end Configd
