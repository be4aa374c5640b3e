import IcebergRs.Support.Json

/-! A reader of compact JSON texts, and that it reads back what was written. -/
namespace IcebergRs.JsonRead
open Json

def hexValue (c : Char) : Option ℕ :=
  if '0' ≤ c ∧ c ≤ '9' then some (c.toNat - 48)
  else if 'a' ≤ c ∧ c ≤ 'f' then some (c.toNat - 87)
  else if 'A' ≤ c ∧ c ≤ 'F' then some (c.toNat - 55)
  else none

/-- A character by the four digits of its number; halves of surrogate pairs are not read. -/
def codePoint (a b c d : Char) : Option Char := do
  let n := 4096 * (← hexValue a) + 256 * (← hexValue b) + 16 * (← hexValue c) + (← hexValue d)
  if n.isValidChar then some (Char.ofNat n) else none

/-- The character behind a backslash, other than `u`. -/
def unescape (c : Char) : Option Char :=
  if c = '"' ∨ c = '\\' ∨ c = '/' then some c
  else if c = 'b' then some (Char.ofNat 8)
  else if c = 't' then some (Char.ofNat 9)
  else if c = 'n' then some (Char.ofNat 10)
  else if c = 'f' then some (Char.ofNat 12)
  else if c = 'r' then some (Char.ofNat 13)
  else none

/-- The rest of a string behind its opening quote, and what comes after it. -/
def chars : List Char → Option (List Char × List Char)
  | [] => none
  | '"' :: cs => some ([], cs)
  | '\\' :: 'u' :: a :: b :: c :: d :: cs => do
    let x ← codePoint a b c d
    let r ← chars cs
    some (x :: r.1, r.2)
  | '\\' :: c :: cs => do
    let x ← unescape c
    let r ← chars cs
    some (x :: r.1, r.2)
  | c :: cs => do
    let r ← chars cs
    some (c :: r.1, r.2)

/-- The digits at the front, and what comes after them. -/
def digits (cs : List Char) : ℕ × List Char :=
  (Nat.ofDigitChars 10 (cs.takeWhile Char.isDigit) 0, cs.dropWhile Char.isDigit)

def positive (cs : List Char) : Option (Json × List Char) :=
  let r := digits cs
  if r.1 < 2 ^ 64 then some (.number (.posInt (UInt64.ofNat r.1)), r.2) else none

def negative (cs : List Char) : Option (Json × List Char) :=
  let r := digits cs
  let i := Int64.ofInt (-(r.1 : ℤ))
  if h : i < 0 then
    if r.1 ≤ 2 ^ 63 then some (.number (.negInt i h), r.2) else none
  else none

def keyword (word : String) (v : Json) (cs : List Char) : Option (Json × List Char) :=
  if word.toList.isPrefixOf cs then some (v, cs.drop word.toList.length) else none

mutual
/-- A value at the front, and what comes after it. -/
def value : ℕ → List Char → Option (Json × List Char)
  | 0, _ => none
  | _ + 1, [] => none
  | n + 1, c :: cs =>
    if c = '"' then (chars cs).map fun r => (.string (String.ofList r.1), r.2)
    else if c = '[' then
      if cs.head? = some ']' then some (.array [], cs.tail)
      else (elements n cs).map fun r => (.array r.1, r.2)
    else if c = '\x7b' then
      if cs.head? = some '\x7d' then some (.object [], cs.tail)
      else if cs.head? = some '"' then (members n cs.tail).map fun r => (.object r.1, r.2)
      else none
    else if c = '-' then negative cs
    else if c.isDigit then positive (c :: cs)
    else (keyword "null" .null (c :: cs)).or ((keyword "true" (.bool true) (c :: cs)).or
      (keyword "false" (.bool false) (c :: cs)))

/-- The elements of an array that is not empty. -/
def elements : ℕ → List Char → Option (List Json × List Char)
  | 0, _ => none
  | n + 1, cs =>
    match value n cs with
    | some (v, ']' :: cs) => some ([v], cs)
    | some (v, ',' :: cs) => (elements n cs).map fun r => (v :: r.1, r.2)
    | _ => none

/-- The fields of an object that is not empty, behind the quote of the first key. -/
def members : ℕ → List Char → Option (List (String × Json) × List Char)
  | 0, _ => none
  | n + 1, cs =>
    match chars cs with
    | some (k, ':' :: cs) =>
      match value n cs with
      | some (v, '\x7d' :: cs) => some ([(String.ofList k, v)], cs)
      | some (v, ',' :: '"' :: cs) =>
        (members n cs).map fun r => ((String.ofList k, v) :: r.1, r.2)
      | _ => none
    | _ => none
end

/-- The value that the whole text is. -/
def read (s : String) : Option Json :=
  match value (s.toList.length + 1) s.toList with
  | some (v, []) => some v
  | _ => none

variable {fmt : Float → String} {rest cs : List Char}

theorem hexValue_hexDigit : ∀ n < 16, hexValue (hexDigit n) = some n := by decide

/-- What an escaped character is read as. -/
theorem chars_escape (c : Char) :
    chars (escape c ++ cs) = (chars cs).map fun r => (c :: r.1, r.2) := by
  unfold escape
  split_ifs with hquote hback h8 h9 h10 h12 h13 h32
  · rw [hquote]
    cases h : chars cs <;> simp [chars, unescape, h]
  · rw [hback]
    cases h : chars cs <;> simp [chars, unescape, h]
  · have hc : c = Char.ofNat 8 := by rw [← h8, Char.ofNat_toNat]
    cases h : chars cs <;> simp [chars, unescape, h, hc]
  · have hc : c = Char.ofNat 9 := by rw [← h9, Char.ofNat_toNat]
    cases h : chars cs <;> simp [chars, unescape, h, hc]
  · have hc : c = Char.ofNat 10 := by rw [← h10, Char.ofNat_toNat]
    cases h : chars cs <;> simp [chars, unescape, h, hc]
  · have hc : c = Char.ofNat 12 := by rw [← h12, Char.ofNat_toNat]
    cases h : chars cs <;> simp [chars, unescape, h, hc]
  · have hc : c = Char.ofNat 13 := by rw [← h13, Char.ofNat_toNat]
    cases h : chars cs <;> simp [chars, unescape, h, hc]
  · have hpoint : codePoint '0' '0' (hexDigit (c.toNat / 16)) (hexDigit (c.toNat % 16)) =
        some c := by
      have hzero : hexValue '0' = some 0 := rfl
      have hsum : 4096 * 0 + 256 * 0 + 16 * (c.toNat / 16) + c.toNat % 16 = c.toNat := by omega
      simp only [codePoint, hzero, hexValue_hexDigit _ (show c.toNat / 16 < 16 by omega),
        hexValue_hexDigit _ (show c.toNat % 16 < 16 by omega), Option.bind_eq_bind,
        Option.bind_some, hsum, Char.ofNat_toNat]
      exact if_pos c.valid
    cases h : chars cs <;> simp [chars, hpoint, h]
  · rw [List.singleton_append, chars]
    · cases h : chars cs <;> simp
    · exact hquote
    · rintro _ _ _ _ _ rfl
      exact absurd rfl hback
    · rintro _ _ rfl
      exact absurd rfl hback

theorem chars_quoted (text : List Char) :
    chars (text.flatMap escape ++ '"' :: rest) = some (text, rest) := by
  induction text with
  | nil => rfl
  | cons c text ih =>
    rw [List.flatMap_cons, List.append_assoc, chars_escape, ih]
    rfl

/-- What comes after a number does not go on with it. -/
def Stops (rest : List Char) : Prop := ∀ c ∈ rest.head?, c.isDigit = false

theorem digits_toDigits (n : ℕ) (h : Stops rest) :
    digits (Nat.toDigits 10 n ++ rest) = (n, rest) := by
  have hall : ∀ c ∈ Nat.toDigits 10 n, c.isDigit = true := fun c hc =>
    Nat.isDigit_of_mem_toDigits (by decide) (by decide) hc
  have htake : rest.takeWhile Char.isDigit = [] := by
    cases rest with
    | nil => rfl
    | cons c rest => exact List.takeWhile_cons_of_neg (by simp [h c rfl])
  have hdrop : rest.dropWhile Char.isDigit = rest := by
    cases rest with
    | nil => rfl
    | cons c rest => exact List.dropWhile_cons_of_neg (by simp [h c rfl])
  rw [digits, List.takeWhile_append_of_pos hall, List.dropWhile_append_of_pos hall, htake, hdrop,
    List.append_nil, Nat.ofDigitChars_ten_toDigits]

theorem value_posInt (u : UInt64) {n : ℕ} (h : Stops rest) :
    value (n + 1) ((text fmt (.number (.posInt u))).toList ++ rest) =
      some (.number (.posInt u), rest) := by
  have htext : (text fmt (.number (.posInt u))).toList = Nat.toDigits 10 u.toNat := by
    rw [text, Number.text, Nat.toString_eq_repr, Nat.toList_repr]
  have hread : positive (Nat.toDigits 10 u.toNat ++ rest) = some (.number (.posInt u), rest) := by
    rw [positive, digits_toDigits _ h]
    dsimp only
    rw [if_pos u.toNat_lt, UInt64.ofNat_toNat]
  rw [htext]
  cases hd : Nat.toDigits 10 u.toNat with
  | nil => exact absurd hd Nat.toDigits_ne_nil
  | cons c cs =>
    rw [hd] at hread
    have hc : c.isDigit = true :=
      Nat.isDigit_of_mem_toDigits (by decide) (by decide) (hd ▸ List.mem_cons_self)
    have hne : ∀ d : Char, d.isDigit = false → c ≠ d := by
      rintro d hd rfl
      exact absurd hc (by simp [hd])
    rw [List.cons_append] at hread ⊢
    rw [value, if_neg (hne _ rfl), if_neg (hne _ rfl), if_neg (hne _ rfl), if_neg (hne _ rfl),
      if_pos hc]
    exact hread

theorem value_negInt (i : Int64) (neg : i < 0) {n : ℕ} (h : Stops rest) :
    value (n + 1) ((text fmt (.number (.negInt i neg))).toList ++ rest) =
      some (.number (.negInt i neg), rest) := by
  have hneg : i.toInt < 0 := by simpa using Int64.lt_iff_toInt_lt.mp neg
  have hlow := i.le_toInt
  have htext : (text fmt (.number (.negInt i neg))).toList =
      '-' :: Nat.toDigits 10 (-i.toInt).toNat := by
    rw [text, Number.text, Int.toString_eq_repr, Int.repr_eq_if, if_neg (by omega),
      String.toList_append, Nat.toList_repr]
    rfl
  have hback : Int64.ofInt (-((-i.toInt).toNat : ℤ)) = i := by
    rw [Int.toNat_of_nonneg (by omega), neg_neg, Int64.ofInt_toInt]
  rw [htext, List.cons_append, value, if_neg (by decide), if_neg (by decide), if_neg (by decide),
    if_pos rfl, negative, digits_toDigits _ h]
  simp only [hback, dif_pos neg, if_pos (show (-i.toInt).toNat ≤ 2 ^ 63 by omega)]

mutual
/-- Floats are left to the text that the caller gives them, and are not read back. -/
def Plain : Json → Prop
  | .number (.float _) => False
  | .array xs => AllPlain xs
  | .object fields => FieldsPlain fields
  | _ => True

def AllPlain : List Json → Prop
  | [] => True
  | x :: xs => Plain x ∧ AllPlain xs

def FieldsPlain : List (String × Json) → Prop
  | [] => True
  | (_, x) :: fields => Plain x ∧ FieldsPlain fields
end

@[simp] theorem allPlain_iff {xs : List Json} : AllPlain xs ↔ ∀ x ∈ xs, Plain x := by
  induction xs with
  | nil => simp [AllPlain]
  | cons x xs ih => simp [AllPlain, ih]

@[simp] theorem fieldsPlain_iff {fields : List (String × Json)} :
    FieldsPlain fields ↔ ∀ p ∈ fields, Plain p.2 := by
  induction fields with
  | nil => simp [FieldsPlain]
  | cons p fields ih => simp [FieldsPlain, ih]

theorem stops_cons {c : Char} (hc : c.isDigit = false) : Stops (c :: rest) := by
  rintro d hd
  obtain rfl : c = d := by simpa using hd
  exact hc

theorem quote_toList (s : String) :
    (quote s).toList = '"' :: (s.toList.flatMap escape ++ ['"']) := by
  simp [quote, String.toList_append]

variable (fmt) in
/-- No value starts with the bracket that would close an empty array. -/
theorem text_head {v : Json} (hv : Plain v) :
    (text fmt v).toList ≠ [] ∧ (text fmt v).toList.head? ≠ some ']' := by
  cases v with
  | null => exact ⟨by rw [text]; decide, by rw [text]; decide⟩
  | bool b => cases b <;> exact ⟨by rw [text]; decide, by rw [text]; decide⟩
  | string s => simp [text, quote_toList]
  | array xs => simp [text, String.toList_append]
  | object fields => simp [text, String.toList_append]
  | number x =>
    cases x with
    | float f => exact absurd hv (by simp [Plain])
    | posInt u =>
      rw [text, Number.text, Nat.toString_eq_repr, Nat.toList_repr]
      refine ⟨Nat.toDigits_ne_nil, fun h => ?_⟩
      have hdigit := Nat.isDigit_of_mem_toDigits (by decide) (by decide) (List.mem_of_mem_head? h)
      exact absurd hdigit (by decide)
    | negInt i neg =>
      have hneg : i.toInt < 0 := by simpa using Int64.lt_iff_toInt_lt.mp neg
      rw [text, Number.text, Int.toString_eq_repr, Int.repr_eq_if, if_neg (by omega),
        String.toList_append]
      exact ⟨by simp, by simp⟩

theorem texts_cons (x y : Json) (xs : List Json) :
    (String.intercalate "," (texts fmt (x :: y :: xs))).toList =
      (text fmt x).toList ++ ',' :: (String.intercalate "," (texts fmt (y :: xs))).toList := by
  simp [texts, String.toList_intercalate, List.intercalate]

variable (fmt) in
theorem texts_head {x : Json} (hx : Plain x) (xs : List Json) (cs : List Char) :
    ((String.intercalate "," (texts fmt (x :: xs))).toList ++ cs).head? ≠ some ']' := by
  obtain ⟨hne, hhead⟩ := text_head fmt hx
  cases xs with
  | nil =>
    rw [texts, texts, String.intercalate_singleton, List.head?_append_of_ne_nil _ hne]
    exact hhead
  | cons y xs =>
    rw [texts_cons, List.append_assoc, List.head?_append_of_ne_nil _ hne]
    exact hhead

theorem fieldTexts_cons (p q : String × Json) (fields : List (String × Json)) :
    (String.intercalate "," (fieldTexts fmt (p :: q :: fields))).toList =
      (quote p.1).toList ++ ':' :: ((text fmt p.2).toList ++
        ',' :: (String.intercalate "," (fieldTexts fmt (q :: fields))).toList) := by
  simp [fieldTexts, String.toList_intercalate, List.intercalate]

/-- Fuel for the length of its text is enough to read the value, whatever comes after it. -/
def ReadsBack (fmt : Float → String) (v : Json) : Prop :=
  ∀ (rest : List Char) (n : ℕ), Stops rest → (text fmt v).toList.length ≤ n →
    value n ((text fmt v).toList ++ rest) = some (v, rest)

theorem elements_texts {x : Json} {xs : List Json} {n : ℕ}
    (h : ∀ y ∈ x :: xs, ReadsBack fmt y)
    (hn : (String.intercalate "," (texts fmt (x :: xs))).toList.length < n) :
    elements n ((String.intercalate "," (texts fmt (x :: xs))).toList ++ ']' :: rest) =
      some (x :: xs, rest) := by
  induction xs generalizing x n with
  | nil =>
    obtain ⟨n, rfl⟩ : ∃ m, n = m + 1 := ⟨n - 1, by omega⟩
    have hone : String.intercalate "," (texts fmt [x]) = text fmt x := by
      rw [texts, texts, String.intercalate_singleton]
    rw [hone] at hn ⊢
    rw [elements, h x List.mem_cons_self _ _ (stops_cons rfl) (by omega)]
    rfl
  | cons y xs ih =>
    obtain ⟨n, rfl⟩ : ∃ m, n = m + 1 := ⟨n - 1, by omega⟩
    rw [texts_cons, List.length_append, List.length_cons] at hn
    rw [texts_cons, List.append_assoc, List.cons_append, elements,
      h x List.mem_cons_self _ _ (stops_cons rfl) (by omega)]
    simp only
    rw [ih (fun z hz => h z (List.mem_cons_of_mem _ hz)) (by omega)]
    rfl

theorem fieldTexts_head (p : String × Json) (fields : List (String × Json)) :
    (String.intercalate "," (fieldTexts fmt (p :: fields))).toList =
      '"' :: (String.intercalate "," (fieldTexts fmt (p :: fields))).toList.tail := by
  cases fields with
  | nil => simp [fieldTexts, quote_toList]
  | cons q fields => rw [fieldTexts_cons, quote_toList, List.cons_append, List.tail_cons]

theorem members_fieldTexts {p : String × Json} {fields : List (String × Json)} {n : ℕ}
    (h : ∀ q ∈ p :: fields, ReadsBack fmt q.2)
    (hn : (String.intercalate "," (fieldTexts fmt (p :: fields))).toList.length < n) :
    members n ((String.intercalate "," (fieldTexts fmt (p :: fields))).toList.tail ++
      '\x7d' :: rest) = some (p :: fields, rest) := by
  induction fields generalizing p n with
  | nil =>
    obtain ⟨n, rfl⟩ : ∃ m, n = m + 1 := ⟨n - 1, by omega⟩
    have hone : (String.intercalate "," (fieldTexts fmt [p])).toList =
        (quote p.1).toList ++ ':' :: (text fmt p.2).toList := by
      simp [fieldTexts]
    rw [hone, List.length_append, List.length_cons] at hn
    rw [hone, quote_toList, List.cons_append, List.tail_cons, List.append_assoc, List.append_assoc,
      List.singleton_append, members, chars_quoted, List.cons_append]
    simp only
    rw [h p List.mem_cons_self _ _ (stops_cons rfl) (by omega)]
    simp only [String.ofList_toList]
  | cons q fields ih =>
    obtain ⟨n, rfl⟩ : ∃ m, n = m + 1 := ⟨n - 1, by omega⟩
    rw [fieldTexts_cons, List.length_append, List.length_cons, List.length_append,
      List.length_cons] at hn
    rw [fieldTexts_cons, quote_toList, List.cons_append, List.tail_cons, List.append_assoc,
      List.append_assoc, List.singleton_append, members, chars_quoted, List.cons_append,
      List.append_assoc]
    simp only
    rw [List.cons_append, h p List.mem_cons_self _ _ (stops_cons rfl) (by omega), fieldTexts_head,
      List.cons_append]
    simp only
    rw [ih (fun p hp => h p (List.mem_cons_of_mem _ hp)) (by omega), String.ofList_toList]
    rfl

/-- Induction in which an array or an object has the property once all inside it do. -/
theorem wholeInduction {P : Json → Prop} (null : P .null) (bool : ∀ b, P (.bool b))
    (number : ∀ x, P (.number x)) (string : ∀ s, P (.string s))
    (array : ∀ xs, (∀ x ∈ xs, P x) → P (.array xs))
    (object : ∀ fields, (∀ p ∈ fields, P p.2) → P (.object fields)) (v : Json) : P v := by
  refine Json.rec (motive_1 := P) (motive_2 := fun xs => ∀ x ∈ xs, P x)
    (motive_3 := fun fields => ∀ p ∈ fields, P p.2) (motive_4 := fun p => P p.2)
    null bool number string array object (by simp) ?_ (by simp) ?_ (fun _ _ h => h) v
  · exact fun x xs hx hxs => List.forall_mem_cons.mpr ⟨hx, hxs⟩
  · exact fun p fields hp hfields => List.forall_mem_cons.mpr ⟨hp, hfields⟩

/-- A text is not empty, so the fuel is at least one. -/
theorem ReadsBack.of_succ {v : Json} (hv : Plain v)
    (h : ∀ (rest : List Char) (n : ℕ), Stops rest → (text fmt v).toList.length ≤ n + 1 →
      value (n + 1) ((text fmt v).toList ++ rest) = some (v, rest)) : ReadsBack fmt v := by
  intro rest n hstops hn
  have hpos := List.length_pos_iff.mpr (text_head fmt hv).1
  obtain ⟨n, rfl⟩ : ∃ m, n = m + 1 := ⟨n - 1, by omega⟩
  exact h rest n hstops hn

variable (fmt) in
theorem readsBack (v : Json) (hv : Plain v) : ReadsBack fmt v := by
  induction v using wholeInduction <;> refine .of_succ hv fun rest n hstops hn => ?_
  case null => simp [text, value, keyword]
  case bool b => cases b <;> simp [text, value, keyword]
  case number x =>
    cases x with
    | posInt u => exact value_posInt u hstops
    | negInt i neg => exact value_negInt i neg hstops
    | float f => exact absurd hv (by simp [Plain])
  case string s =>
    rw [text, quote_toList, List.cons_append, value, if_pos rfl, List.append_assoc,
      List.singleton_append, chars_quoted, Option.map_some, String.ofList_toList]
  case array xs ih =>
    have hplain : ∀ x ∈ xs, Plain x := by rwa [Plain, allPlain_iff] at hv
    have hread : ∀ x ∈ xs, ReadsBack fmt x := fun x hx => ih x hx (hplain x hx)
    cases xs with
    | nil => simp [text, texts, value]
    | cons x xs =>
      have htext : (text fmt (.array (x :: xs))).toList =
          '[' :: ((String.intercalate "," (texts fmt (x :: xs))).toList ++ [']']) := by
        simp [text, String.toList_append]
      have hhead := texts_head fmt (hplain x List.mem_cons_self) xs (']' :: rest)
      rw [htext, List.length_cons, List.length_append, List.length_singleton] at hn
      rw [htext, List.cons_append, List.append_assoc, List.singleton_append, value,
        if_neg (by decide), if_pos rfl, if_neg hhead, elements_texts hread (by omega)]
      rfl
  case object fields ih =>
    have hplain : ∀ p ∈ fields, Plain p.2 := by rwa [Plain, fieldsPlain_iff] at hv
    have hread : ∀ p ∈ fields, ReadsBack fmt p.2 := fun p hp => ih p hp (hplain p hp)
    cases fields with
    | nil => simp [text, fieldTexts, value]
    | cons p fields =>
      have htext : (text fmt (.object (p :: fields))).toList = '\x7b' ::
          ((String.intercalate "," (fieldTexts fmt (p :: fields))).toList ++ ['\x7d']) := by
        simp [text, String.toList_append]
      rw [htext, List.length_cons, List.length_append, List.length_singleton] at hn
      rw [htext, List.cons_append, List.append_assoc, List.singleton_append, value,
        if_neg (by decide), if_neg (by decide), if_pos rfl, fieldTexts_head, List.cons_append,
        if_neg (by simp), if_pos (by simp), List.tail_cons, members_fieldTexts hread (by omega)]
      rfl

/-- What `text` writes of a value without floats is read as that value, and all of it. -/
theorem read_text (v : Json) (hv : Plain v) : read (text fmt v) = some v := by
  have h := readsBack fmt v hv [] ((text fmt v).toList.length + 1) nofun (by omega)
  rw [List.append_nil] at h
  rw [read, h]

end IcebergRs.JsonRead
