import Mathlib
import ModelRegistry.Json.Read

namespace ModelRegistry

namespace Text.Reader

variable {α β : Type} {r : Reader α} {f : α → Reader β} {cs rest : List Char} {a : α}

theorem bind_of_eq (h : r cs = some (a, rest)) : (r >>= f) cs = f a rest := by
  simp [bind, StateT.bind, h]

theorem bind_of_eq_none (h : r cs = none) : (r >>= f) cs = none := by
  simp [bind, StateT.bind, h]

theorem oneOf_cons {p : Char → Bool} {c : Char} (h : p c) : oneOf p (c :: cs) = some (c, cs) := by
  simp [oneOf, h]

theorem oneOf_eq_none {p : Char → Bool} (h : ∀ c, cs.head? = some c → p c = false) :
    oneOf p cs = none := by
  cases cs with
  | nil => rfl
  | cons c cs => simp [oneOf, h c rfl]

theorem char_cons (c : Char) (cs : List Char) : char c (c :: cs) = some ((), cs) := by
  have hone : oneOf (· == c) (c :: cs) = some (c, cs) := oneOf_cons (by simp)
  rw [char, bind_of_eq hone]
  rfl

theorem char_eq_none {c : Char} (h : cs.head? ≠ some c) : char c cs = none := by
  apply bind_of_eq_none
  apply oneOf_eq_none
  intro d hd
  have hne : d ≠ c := by
    rintro rfl
    exact h hd
  simp [hne]

theorem peek_cons (c : Char) (cs : List Char) : peek (c :: cs) = some (some c, c :: cs) := rfl

theorem exactly_append (l rest : List Char) : exactly l (l ++ rest) = some ((), rest) := by
  induction l with
  | nil => rfl
  | cons c l ih => rw [exactly, List.cons_append, bind_of_eq (char_cons c _), ih]

theorem option_of_eq (h : r cs = some (a, rest)) : option r cs = some (some a, rest) := by
  simp [option, h]

theorem option_of_eq_none (h : r cs = none) : option r cs = some (none, cs) := by
  simp [option, h]

theorem run_append {p : Char → Bool} {l : List Char} (hl : ∀ c ∈ l, p c)
    (hrest : ∀ c, rest.head? = some c → p c = false) : run p (l ++ rest) = some (l, rest) := by
  have hnone : rest.takeWhile p = [] ∧ rest.dropWhile p = rest := by
    cases rest with
    | nil => simp
    | cons c rest => simp [hrest c rfl]
  rw [run, List.takeWhile_append_of_pos hl, List.dropWhile_append_of_pos hl, hnone.1, hnone.2,
    List.append_nil]

theorem run1_append {p : Char → Bool} {c : Char} {l : List Char} (hl : ∀ d ∈ c :: l, p d)
    (hrest : ∀ d, rest.head? = some d → p d = false) :
    run1 p (c :: l ++ rest) = some (c :: l, rest) := by
  have hrun : run p (l ++ rest) = some (l, rest) :=
    run_append (fun d hd => hl d (List.mem_cons_of_mem _ hd)) hrest
  rw [run1, List.cons_append, bind_of_eq (oneOf_cons (hl c (by simp))), bind_of_eq hrun]
  rfl

theorem exactRun_append {p : Char → Bool} {l : List Char} (hl : ∀ c ∈ l, p c) (rest : List Char) :
    exactRun p l.length (l ++ rest) = some (l, rest) := by
  induction l with
  | nil => rfl
  | cons c l ih =>
    have htail := ih fun d hd => hl d (List.mem_cons_of_mem _ hd)
    rw [List.length_cons, exactRun, List.cons_append, bind_of_eq (oneOf_cons (hl c (by simp))),
      bind_of_eq htail]
    rfl

inductive Takes (r : Reader α) : List Char → List α → List Char → Prop
  | done {cs : List Char} : r cs = none → Takes r cs [] cs
  | more {cs next rest : List Char} {a : α} {as : List α} : r cs = some (a, next) →
      next.length < cs.length → Takes r next as rest → Takes r cs (a :: as) rest

theorem Takes.upTo {as : List α} (h : Takes r cs as rest) {n : Nat} (hn : cs.length ≤ n)
    (before : List α) : upTo r n before cs = some (before.reverse ++ as, rest) := by
  induction h generalizing n before with
  | done hr =>
    cases n with
    | zero => simp [Reader.upTo, pure, StateT.pure]
    | succ n => simp [Reader.upTo, hr]
  | more hr hlt _ ih =>
    cases n with
    | zero => omega
    | succ n =>
      rw [Reader.upTo]
      simp only [hr]
      rw [ih (by omega)]
      simp

theorem Takes.many {as : List α} (h : Takes r cs as rest) : many r cs = some (as, rest) :=
  h.upTo (Nat.le_refl _) []

end Text.Reader

namespace Json

open Text Text.Reader

def Closes (rest : List Char) : Prop :=
  ∀ c, rest.head? = some c → c = ',' ∨ c = ']' ∨ c = '\x7d'

theorem closes_nil : Closes [] := by
  intro c h
  cases h

theorem spaces_eq {cs : List Char} (h : ∀ c, cs.head? = some c → isSpace c = false) :
    spaces cs = some ((), cs) := by
  have hrun : run isSpace cs = some ([], cs) := run_append (l := []) (by simp) h
  rw [spaces, bind_of_eq hrun]
  rfl

theorem spaces_cons {c : Char} (h : isSpace c = false) (cs : List Char) :
    spaces (c :: cs) = some ((), c :: cs) := by
  apply spaces_eq
  intro d hd
  obtain rfl : c = d := by simpa using hd
  exact h

theorem spaces_append {cs : List Char} (h : ∃ c, cs.head? = some c ∧ isSpace c = false)
    (rest : List Char) : spaces (cs ++ rest) = some ((), cs ++ rest) := by
  obtain ⟨c, hc, hspace⟩ := h
  obtain ⟨cs, rfl⟩ := List.head?_eq_some_iff.1 hc
  exact spaces_cons hspace (cs ++ rest)

theorem Closes.spaces_eq {rest : List Char} (h : Closes rest) : spaces rest = some ((), rest) := by
  apply Json.spaces_eq
  intro c hc
  rcases h c hc with rfl | rfl | rfl <;> rfl

section Strings

def element (c : Char) : Unit16 :=
  if c.toNat < 32 ∧ c ≠ '\x08' ∧ c ≠ '\t' ∧ c ≠ '\n' ∧ c ≠ '\x0c' ∧ c ≠ '\r' then .unit c.toNat
  else .char c

theorem isHexDigit_hexDigit {n : Nat} (h : n < 16) : isHexDigit (hexDigit n) := by
  revert n
  decide

theorem hexValue_hexDigit {n : Nat} (h : n < 16) : hexValue (hexDigit n) = n := by
  revert n
  decide

theorem escaped_unit {n : Nat} (h : n < 256) (rest : List Char) :
    escaped ('u' :: '0' :: '0' :: hexDigit (n / 16) :: hexDigit (n % 16) :: rest) =
      some (.unit n, rest) := by
  let digits := ['0', '0', hexDigit (n / 16), hexDigit (n % 16)]
  have hhigh : n / 16 < 16 := by omega
  have hlow : n % 16 < 16 := by omega
  have hdigits : ∀ c ∈ digits, isHexDigit c := by
    have hzero : isHexDigit '0' := by decide
    simp [digits, isHexDigit_hexDigit hhigh, isHexDigit_hexDigit hlow, hzero]
  have hrun : exactRun isHexDigit 4 (digits ++ rest) = some (digits, rest) :=
    exactRun_append hdigits rest
  have hvalue : hexadecimal digits = n := by
    simp only [digits, hexadecimal, ofDigits, List.foldl_cons, List.foldl_nil,
      hexValue_hexDigit hhigh, hexValue_hexDigit hlow, show hexValue '0' = 0 by decide]
    omega
  have hnext : next ('u' :: (digits ++ rest)) = some ('u', digits ++ rest) := rfl
  have hunit : escaped ('u' :: (digits ++ rest)) = some (.unit (hexadecimal digits), rest) := by
    rw [escaped, bind_of_eq hnext]
    simp only
    rw [bind_of_eq hrun]
    rfl
  rwa [hvalue] at hunit

theorem stringElement_escape (c : Char) (rest : List Char) :
    stringElement (escape c ++ rest) = some (element c, rest) := by
  unfold escape
  split
  · subst c; rfl
  split
  · subst c; rfl
  split
  · subst c; rfl
  split
  · subst c; rfl
  split
  · subst c; rfl
  split
  · subst c; rfl
  split
  · subst c; rfl
  rename_i hquote hback hb ht hn hf hr
  split
  · rename_i hcontrol
    have helement : element c = .unit c.toNat := by simp [element, hcontrol, hb, ht, hn, hf, hr]
    rw [helement]
    exact escaped_unit (by omega) rest
  · rename_i hplain
    have helement : element c = .char c := by simp [element, hplain]
    have hle : (' ' ≤ c && c != '"') = true := by
      have hspace : ' ' ≤ c := by
        change 32 ≤ c.toNat
        omega
      simp [hspace, hquote]
    rw [helement, List.singleton_append, stringElement, bind_of_eq (oneOf_cons hle), if_neg hback]
    rfl

theorem assemble_unit {n : Nat} (h : n < 32) (rest : List Unit16) :
    assemble (.unit n :: rest) = (assemble rest).map (Char.ofNat n :: ·) := by
  have hhigh : isHigh n = false := by simp [isHigh]; omega
  have hscalar : scalar? n = some (Char.ofNat n) := if_pos (.inl (by omega))
  cases rest with
  | nil => simp [assemble, hscalar]
  | cons u rest =>
    cases u with
    | char c => simp [assemble, hscalar, Option.map_eq_bind]
    | unit m => simp [assemble, hscalar, hhigh, Option.map_eq_bind]

theorem assemble_elements (cs : List Char) : assemble (cs.map element) = some cs := by
  induction cs with
  | nil => rfl
  | cons c cs ih =>
    rw [List.map_cons, element]
    split
    · rename_i hcontrol
      rw [assemble_unit hcontrol.1, ih, Option.map_some, Char.ofNat_toNat]
    · simp [assemble, ih]

theorem escape_ne_nil (c : Char) : escape c ≠ [] := by
  intro h
  have hread := stringElement_escape c []
  rw [h] at hread
  cases hread

theorem takes_stringElement (cs rest : List Char) :
    Takes stringElement (cs.flatMap escape ++ '"' :: rest) (cs.map element) ('"' :: rest) := by
  induction cs with
  | nil => exact .done rfl
  | cons c cs ih =>
    rw [List.flatMap_cons, List.append_assoc]
    refine .more (stringElement_escape c _) ?_ ih
    have hpos := List.length_pos_iff.2 (escape_ne_nil c)
    simp only [List.length_append]
    omega

theorem string_quote (s : String) (rest : List Char) :
    string (quote s ++ rest) = some (some s, rest) := by
  have helements := (takes_stringElement s.toList rest).many
  rw [quote, List.cons_append, List.cons_append, List.append_assoc, List.singleton_append, string,
    bind_of_eq (char_cons _ _), bind_of_eq helements, bind_of_eq (char_cons _ _), assemble_elements]
  simp [pure, StateT.pure]

end Strings

section Numbers

theorem isDigit_of_mem_toDigits {n : Nat} {c : Char} (h : c ∈ Nat.toDigits 10 n) : c.isDigit :=
  Nat.isDigit_of_mem_toDigits (by omega) (by omega) h

theorem decimal_toDigits (n : Nat) : decimal (Nat.toDigits 10 n) = n := by
  have hfold : ∀ cs : List Char, (∀ c ∈ cs, c.isDigit) → ∀ m,
      cs.foldl (fun n c => 10 * n + hexValue c) m = Nat.ofDigitChars 10 cs m := by
    intro cs hcs
    induction cs with
    | nil => simp
    | cons c cs ih =>
      intro m
      have hc : hexValue c = c.toNat - '0'.toNat := if_pos (hcs c (by simp))
      rw [List.foldl_cons, ih (fun d hd => hcs d (List.mem_cons_of_mem _ hd)),
        Nat.ofDigitChars_cons, hc]
  rw [decimal, ofDigits, hfold _ (fun c hc => isDigit_of_mem_toDigits hc),
    Nat.ofDigitChars_ten_toDigits]

theorem eq_zero_of_toDigits (n : Nat) (h : (Nat.toDigits 10 n).head? = some '0') : n = 0 := by
  induction n using Nat.strongRecOn with
  | ind n ih =>
    by_cases hn : n < 10
    · have hall : ∀ m < 10, [Nat.digitChar m].head? = some '0' → m = 0 := by decide
      rw [Nat.toDigits_of_lt_base hn] at h
      exact hall n hn h
    · have hhead : (Nat.toDigits 10 (n / 10)).head? = some '0' := by
        rwa [Nat.toDigits_of_base_le (by omega) (by omega), List.head?_append,
          Option.or_of_isSome (by simp)] at h
      have := ih (n / 10) (by omega) hhead
      omega

theorem Closes.not_isDigit {rest : List Char} (h : Closes rest) :
    ∀ c, rest.head? = some c → c.isDigit = false := by
  intro c hc
  rcases h c hc with rfl | rfl | rfl <;> rfl

theorem wholePart_toDigits (n : Nat) {rest : List Char} (h : Closes rest) :
    wholePart (Nat.toDigits 10 n ++ rest) = some (Nat.toDigits 10 n, rest) := by
  cases hdigits : Nat.toDigits 10 n with
  | nil => exact absurd hdigits Nat.toDigits_ne_nil
  | cons c l =>
    by_cases hc : c = '0'
    · subst hc
      obtain rfl := eq_zero_of_toDigits n (by rw [hdigits]; rfl)
      obtain rfl : [] = l := by simpa using hdigits
      rfl
    · have hrun : run1 Char.isDigit (c :: l ++ rest) = some (c :: l, rest) :=
        run1_append (fun d hd => isDigit_of_mem_toDigits (hdigits ▸ hd)) h.not_isDigit
      rw [wholePart, List.cons_append, bind_of_eq (peek_cons c _)]
      simpa [hc] using hrun

theorem option_fraction_eq {rest : List Char} (h : Closes rest) :
    option fraction rest = some (none, rest) := by
  apply option_of_eq_none
  apply bind_of_eq_none
  apply char_eq_none
  intro hc
  rcases h _ hc with he | he | he <;> cases he

theorem option_exponent_eq {rest : List Char} (h : Closes rest) :
    option exponent rest = some (none, rest) := by
  apply option_of_eq_none
  apply bind_of_eq_none
  apply oneOf_eq_none
  intro c hc
  rcases h c hc with rfl | rfl | rfl <;> rfl

theorem number_toString (i : Int) {rest : List Char} (h : Closes rest) :
    number ((toString i).toList ++ rest) = some (.integer i, rest) := by
  cases i with
  | ofNat n =>
    have hchars : (toString (Int.ofNat n)).toList = Nat.toDigits 10 n := Nat.toList_repr
    have hsign : option (char '-') (Nat.toDigits 10 n ++ rest) =
        some (none, Nat.toDigits 10 n ++ rest) := by
      apply option_of_eq_none
      apply char_eq_none
      rw [List.head?_append, Option.or_of_isSome (by simp)]
      intro hc
      cases isDigit_of_mem_toDigits (List.mem_of_head? hc)
    rw [hchars, number, bind_of_eq hsign, bind_of_eq (wholePart_toDigits n h),
      bind_of_eq (option_fraction_eq h), bind_of_eq (option_exponent_eq h)]
    simp [decimal_toDigits, pure, StateT.pure]
  | negSucc n =>
    have hchars : (toString (Int.negSucc n)).toList = '-' :: Nat.toDigits 10 (n + 1) := by
      change ("-" ++ Nat.repr (n + 1)).toList = _
      rw [String.toList_append, Nat.toList_repr]
      rfl
    have hsign := option_of_eq (char_cons '-' (Nat.toDigits 10 (n + 1) ++ rest))
    have hzero : Nat.toDigits 10 (n + 1) ≠ ['0'] := by
      intro hz
      have := eq_zero_of_toDigits (n + 1) (by rw [hz]; rfl)
      omega
    rw [hchars, number, List.cons_append, bind_of_eq hsign,
      bind_of_eq (wholePart_toDigits (n + 1) h), bind_of_eq (option_fraction_eq h),
      bind_of_eq (option_exponent_eq h)]
    simp [decimal_toDigits, hzero, pure, StateT.pure, Int.negSucc_eq]

end Numbers

section Brackets

variable {α γ : Type} {item : Reader α} {text : γ → List Char} {value : γ → α} {closing : Char}
  {rest : List Char}

structure Itemized (item : Reader α) (text : γ → List Char) (value : γ → α) (xs : List γ) :
    Prop where
  reads : ∀ x ∈ xs, ∀ rest, Closes rest → item (text x ++ rest) = some (value x, rest)
  starts : ∀ x ∈ xs, ∃ c, (text x).head? = some c ∧ isSpace c = false

def spaced (item : Reader α) : Reader α := do
  spaces
  let a ← item
  spaces
  return a

theorem bracketed_eq (opening closing : Char) (item : Reader α) :
    bracketed opening closing item = do
      char opening
      let items ← option (separated (spaced item) (char ','))
      if items.isNone then spaces
      char closing
      return items.getD [] := rfl

theorem Itemized.tail {x : γ} {xs : List γ} (h : Itemized item text value (x :: xs)) :
    Itemized item text value xs :=
  ⟨fun y hy => h.reads y (List.mem_cons_of_mem _ hy),
    fun y hy => h.starts y (List.mem_cons_of_mem _ hy)⟩

theorem Itemized.spaced_eq {x : γ} {xs : List γ} (h : Itemized item text value (x :: xs))
    (hrest : Closes rest) : spaced item (text x ++ rest) = some (value x, rest) := by
  have hspaces := spaces_append (h.starts x (by simp)) rest
  rw [spaced, bind_of_eq hspaces, bind_of_eq (h.reads x (by simp) rest hrest),
    bind_of_eq hrest.spaces_eq]
  rfl

theorem closes_items (hclosing : Closes (closing :: rest)) (xs : List γ) :
    Closes (xs.flatMap (fun x => ',' :: text x) ++ closing :: rest) := by
  cases xs with
  | nil => exact hclosing
  | cons x xs =>
    intro c hc
    exact .inl (by simpa using hc.symm)

theorem Itemized.takes {xs : List γ} (h : Itemized item text value xs)
    (hclosing : Closes (closing :: rest)) (hcomma : closing ≠ ',') :
    Takes (do
        char ','
        spaced item)
      (xs.flatMap (fun x => ',' :: text x) ++ closing :: rest) (xs.map value)
      (closing :: rest) := by
  induction xs with
  | nil =>
    refine .done (bind_of_eq_none (char_eq_none ?_))
    simpa using hcomma
  | cons x xs ih =>
    have hrest : Closes (xs.flatMap (fun x => ',' :: text x) ++ closing :: rest) :=
      closes_items hclosing xs
    rw [List.flatMap_cons, List.append_assoc, List.cons_append]
    refine .more ?_ ?_ (ih h.tail)
    · rw [bind_of_eq (char_cons _ _), h.spaced_eq hrest]
    · simp only [List.length_cons, List.length_append]
      omega

theorem bracketed_nil (opening : Char) (hspace : isSpace closing = false)
    (hnone : item (closing :: rest) = none) :
    bracketed opening closing item (opening :: closing :: rest) = some ([], rest) := by
  have hspaces := spaces_cons hspace rest
  have hitems : option (separated (spaced item) (char ',')) (closing :: rest) =
      some (none, closing :: rest) := by
    apply option_of_eq_none
    apply bind_of_eq_none
    rw [spaced, bind_of_eq hspaces, bind_of_eq_none hnone]
  have hend : (do
      char closing
      return ([] : List α)) (closing :: rest) = some ([], rest) := by
    rw [bind_of_eq (char_cons _ _)]
    rfl
  rw [bracketed_eq, bind_of_eq (char_cons _ _), bind_of_eq hitems, Option.isNone_none, if_pos rfl,
    bind_of_eq hspaces]
  exact hend

theorem Itemized.bracketed_cons {x : γ} {xs : List γ} (h : Itemized item text value (x :: xs))
    (opening : Char) (hclosing : Closes (closing :: rest)) (hcomma : closing ≠ ',') :
    bracketed opening closing item
        (opening :: (text x ++ (xs.flatMap (fun x => ',' :: text x) ++ closing :: rest))) =
      some ((x :: xs).map value, rest) := by
  have hitems : separated (spaced item) (char ',')
      (text x ++ (xs.flatMap (fun x => ',' :: text x) ++ closing :: rest)) =
        some ((x :: xs).map value, closing :: rest) := by
    rw [separated, bind_of_eq (h.spaced_eq (closes_items hclosing xs)),
      bind_of_eq (h.tail.takes hclosing hcomma).many]
    rfl
  have hend : (do
      char closing
      return (x :: xs).map value) (closing :: rest) = some ((x :: xs).map value, rest) := by
    rw [bind_of_eq (char_cons _ _)]
    rfl
  rw [bracketed_eq, bind_of_eq (char_cons _ _), bind_of_eq (option_of_eq hitems)]
  exact hend

end Brackets

/-- A value whose compact text is read as that value. -/
inductive Plain : Value → Prop
  | null : Plain .null
  | boolean (b : Bool) : Plain (.boolean b)
  | integer (i : Int) : Plain (.integer i)
  | text (s : String) : Plain (.text s)
  | array {elements : List Value} : (∀ v ∈ elements, Plain v) → Plain (.array elements)
  | record {members : List (String × Value)} : (∀ m ∈ members, Plain m.2) → Plain (.record members)

theorem elementChars_cons (v : Value) (elements : List Value) :
    Value.elementChars (v :: elements) =
      v.chars ++ elements.flatMap (fun v => ',' :: v.chars) := by
  induction elements generalizing v with
  | nil => simp [Value.elementChars]
  | cons w elements ih =>
    rw [Value.elementChars, ih, List.flatMap_cons, List.cons_append]
    simp

def memberText (m : Option String × Value) : List Char := quote (m.1.getD "") ++ ':' :: m.2.chars

theorem memberChars_cons (m : Option String × Value) (members : List (Option String × Value)) :
    Value.memberChars (m :: members) =
      memberText m ++ members.flatMap (fun m => ',' :: memberText m) := by
  induction members generalizing m with
  | nil => simp [Value.memberChars, memberText]
  | cons n members ih =>
    rw [Value.memberChars, ih, List.flatMap_cons, List.cons_append]
    · simp [memberText]
    · simp

theorem head?_toString (i : Int) :
    ∃ c, (toString i).toList.head? = some c ∧ (c.isDigit ∨ c = '-') := by
  cases i with
  | ofNat n =>
    have hchars : (toString (Int.ofNat n)).toList = Nat.toDigits 10 n := Nat.toList_repr
    rw [hchars]
    cases hdigits : Nat.toDigits 10 n with
    | nil => exact absurd hdigits Nat.toDigits_ne_nil
    | cons c l => exact ⟨c, rfl, .inl (isDigit_of_mem_toDigits (hdigits ▸ List.mem_cons_self))⟩
  | negSucc n =>
    refine ⟨'-', ?_, .inr rfl⟩
    change ("-" ++ Nat.repr (n + 1)).toList.head? = _
    simp

theorem Plain.starts {v : Value} (h : Plain v) :
    ∃ c, v.chars.head? = some c ∧ isSpace c = false := by
  cases h with
  | integer i =>
    obtain ⟨c, hc, hdigit | rfl⟩ := head?_toString i
    · refine ⟨c, hc, ?_⟩
      cases hspace : isSpace c with
      | false => rfl
      | true =>
        simp only [isSpace, Bool.or_eq_true, beq_iff_eq] at hspace
        rcases hspace with ((rfl | rfl) | rfl) | rfl <;> cases hdigit
    · exact ⟨'-', hc, rfl⟩
  | boolean b => cases b <;> exact ⟨_, rfl, rfl⟩
  | _ => exact ⟨_, rfl, rfl⟩

theorem valueWithin_number {n : Nat} {c : Char} {cs : List Char}
    (hc : c.isDigit ∨ c = '-' ∨ c = ']') : valueWithin (n + 1) (c :: cs) = number (c :: cs) := by
  have hne : c ≠ '"' ∧ c ≠ '[' ∧ c ≠ '\x7b' ∧ c ≠ 'n' ∧ c ≠ 't' ∧ c ≠ 'f' := by
    refine ⟨?_, ?_, ?_, ?_, ?_, ?_⟩ <;> rintro rfl <;> revert hc <;> decide
  rw [valueWithin, bind_of_eq (peek_cons c cs)]
  simp [hne]

theorem valueWithin_bracket (n : Nat) (rest : List Char) : valueWithin n (']' :: rest) = none := by
  cases n with
  | zero => rfl
  | succ n =>
    rw [valueWithin_number (.inr (.inr rfl))]
    rfl

theorem word_append (s : String) (v : Value) (rest : List Char) :
    word s v (s.toList ++ rest) = some (v, rest) := by
  rw [word, Reader.text, bind_of_eq (exactly_append _ _)]
  rfl

theorem Itemized.array {n : Nat} {elements : List Value} {rest : List Char}
    (h : Itemized (valueWithin n) Value.chars id elements) :
    valueWithin (n + 1) ((Value.array elements).chars ++ rest) = some (.array elements, rest) := by
  have hclosing : Closes (']' :: rest) := by
    intro c hc
    exact .inr (.inl (by simpa using hc.symm))
  have hopen : valueWithin (n + 1) ((Value.array elements).chars ++ rest) =
      (do return .array (← bracketed '[' ']' (valueWithin n)) : Reader Value)
        ('[' :: (Value.elementChars elements ++ ']' :: rest)) := by
    rw [Value.chars, List.append_assoc]
    rfl
  have hread : bracketed '[' ']' (valueWithin n)
      ('[' :: (Value.elementChars elements ++ ']' :: rest)) = some (elements, rest) := by
    cases elements with
    | nil => exact bracketed_nil '[' rfl (valueWithin_bracket n rest)
    | cons v elements =>
      rw [elementChars_cons, List.append_assoc, h.bracketed_cons '[' hclosing (by decide),
        List.map_id]
  rw [hopen, bind_of_eq hread]
  rfl

theorem Itemized.object {n : Nat} {members : List (Option String × Value)} {rest : List Char}
    (h : Itemized (member (valueWithin n)) memberText id members) :
    valueWithin (n + 1) ((Value.object members).chars ++ rest) = some (.object members, rest) := by
  have hclosing : Closes ('\x7d' :: rest) := by
    intro c hc
    exact .inr (.inr (by simpa using hc.symm))
  have hopen : valueWithin (n + 1) ((Value.object members).chars ++ rest) =
      (do return .object (← bracketed '\x7b' '\x7d' (member (valueWithin n))) : Reader Value)
        ('\x7b' :: (Value.memberChars members ++ '\x7d' :: rest)) := by
    rw [Value.chars, List.append_assoc]
    rfl
  have hread : bracketed '\x7b' '\x7d' (member (valueWithin n))
      ('\x7b' :: (Value.memberChars members ++ '\x7d' :: rest)) = some (members, rest) := by
    cases members with
    | nil => exact bracketed_nil '\x7b' rfl rfl
    | cons m members =>
      rw [memberChars_cons, List.append_assoc, h.bracketed_cons '\x7b' hclosing (by decide),
        List.map_id]
  rw [hopen, bind_of_eq hread]
  rfl

theorem member_memberText {value : Reader Value} {k : String} {v : Value} {rest : List Char}
    (hread : value (v.chars ++ rest) = some (v, rest))
    (hstart : ∃ c, v.chars.head? = some c ∧ isSpace c = false) :
    member value (memberText (some k, v) ++ rest) = some ((some k, v), rest) := by
  have hspaces := spaces_append hstart rest
  have hcolon : spaces (':' :: (v.chars ++ rest)) = _ := spaces_cons rfl _
  rw [memberText, Option.getD_some, List.append_assoc, List.cons_append, member,
    bind_of_eq (string_quote k _), bind_of_eq hcolon, bind_of_eq (char_cons _ _),
    bind_of_eq hspaces, bind_of_eq hread]
  rfl

theorem length_le_items {γ : Type} (text : γ → List Char) {x y : γ} {xs : List γ}
    (h : y ∈ x :: xs) :
    (text y).length ≤ (text x ++ xs.flatMap (fun x => ',' :: text x)).length := by
  rw [List.length_append]
  rcases List.mem_cons.1 h with rfl | h
  · omega
  · have hsub : (',' :: text y).Sublist (xs.flatMap (fun x => ',' :: text x)) :=
      List.sublist_flatten_of_mem (List.mem_map_of_mem h)
    have hle := hsub.length_le
    rw [List.length_cons] at hle
    omega

theorem length_le_elementChars {v : Value} {elements : List Value} (h : v ∈ elements) :
    v.chars.length ≤ (Value.elementChars elements).length := by
  cases elements with
  | nil => cases h
  | cons w elements =>
    rw [elementChars_cons]
    exact length_le_items Value.chars h

theorem length_le_memberChars {m : Option String × Value} {members : List (Option String × Value)}
    (h : m ∈ members) : m.2.chars.length ≤ (Value.memberChars members).length := by
  have htext : m.2.chars.length ≤ (memberText m).length := by
    simp only [memberText, List.length_append, List.length_cons]
    omega
  cases members with
  | nil => cases h
  | cons w members =>
    rw [memberChars_cons]
    exact Nat.le_trans htext (length_le_items memberText h)

theorem Plain.reads {v : Value} (h : Plain v) {n : Nat} {rest : List Char} (hn : v.chars.length ≤ n)
    (hrest : Closes rest) : valueWithin n (v.chars ++ rest) = some (v, rest) := by
  -- what stands between two brackets is shorter than the whole, so less fuel does for it
  induction h generalizing n rest with
  | null =>
    cases n with
    | zero => cases hn
    | succ n => exact word_append "null" .null rest
  | boolean b =>
    cases n with
    | zero => cases b <;> cases hn
    | succ n =>
      cases b with
      | false => exact word_append "false" (.boolean false) rest
      | true => exact word_append "true" (.boolean true) rest
  | integer i =>
    obtain ⟨c, hc, hfirst⟩ := head?_toString i
    obtain ⟨cs, hcs⟩ : ∃ cs, (toString i).toList = c :: cs := List.head?_eq_some_iff.1 hc
    have hread := number_toString i hrest
    rw [Value.chars, hcs] at hn ⊢
    rw [hcs] at hread
    cases n with
    | zero => cases hn
    | succ n =>
      rw [List.cons_append, valueWithin_number (hfirst.imp_right .inl)]
      exact hread
  | text s =>
    cases n with
    | zero => cases hn
    | succ n =>
      change (do return (← string).elim .brokenText .text : Reader Value) (quote s ++ rest) = _
      rw [bind_of_eq (string_quote s rest)]
      rfl
  | @array elements hall ih =>
    cases n with
    | zero => cases hn
    | succ n =>
      have hlength : (Value.elementChars elements).length ≤ n := by
        simp only [Value.chars, List.length_append, List.length_cons] at hn
        omega
      apply Itemized.array
      constructor
      · intro v hv rest hrest
        exact ih v hv (Nat.le_trans (length_le_elementChars hv) hlength) hrest
      · exact fun v hv => (hall v hv).starts
  | @record members hall ih =>
    cases n with
    | zero => cases hn
    | succ n =>
      have hlength : (Value.memberChars (members.map fun m => (some m.1, m.2))).length ≤ n := by
        simp only [Value.record, Value.chars, List.length_append, List.length_cons] at hn
        omega
      apply Itemized.object
      constructor
      · intro m hm rest hrest
        have hle := Nat.le_trans (length_le_memberChars hm) hlength
        obtain ⟨⟨k, v⟩, hkv, rfl⟩ := List.mem_map.1 hm
        exact member_memberText (ih _ hkv hle hrest) (hall _ hkv).starts
      · intro m hm
        exact ⟨'"', rfl, rfl⟩

theorem read_compact {v : Value} (h : Plain v) : read v.compact = some v := by
  have hchars : v.compact.toList = v.chars := String.toList_ofList
  have hspaces := spaces_append h.starts []
  rw [List.append_nil] at hspaces
  have hvalue : value v.chars = some (v, []) := by
    have hread := h.reads (Nat.le_succ v.chars.length) closes_nil
    rwa [List.append_nil] at hread
  have hall : (do
      spaces
      let v ← value
      spaces
      return v : Reader Value) v.chars = some (v, []) := by
    rw [bind_of_eq hspaces, bind_of_eq hvalue, bind_of_eq closes_nil.spaces_eq]
    rfl
  rw [read, whole, hchars, hall]
  rfl

end Json

end ModelRegistry
