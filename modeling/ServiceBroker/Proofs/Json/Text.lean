import ServiceBroker.Json.Printer
import ServiceBroker.Proofs.Json.Faultless

/-!
# Reading back a text

The text of a tree whose numbers are integers of 64 bits is read as the document of that tree. The
text is first cut into the tokens of the tree; from these the document is put together again.
-/
namespace ServiceBroker
namespace Json

/-! ## Integers -/

/-- The integers that fit 64 bits, signed or unsigned. -/
def Fits (n : Int) : Prop := -Number.signedLimit ≤ n ∧ n < Number.unsignedLimit

mutual
/-- Every number of the tree is an integer of 64 bits. -/
def Integral : Json → Prop
  | .num (.int n) => Fits n
  | .num (.double _) => False
  | .arr items => IntegralItems items
  | .obj members => IntegralMembers members
  | .null | .bool _ | .str _ => True

def IntegralItems : List Json → Prop
  | [] => True
  | j :: js => Integral j ∧ IntegralItems js

def IntegralMembers : List (String × Json) → Prop
  | [] => True
  | (_, j) :: ms => Integral j ∧ IntegralMembers ms
end

theorem integralItems_iff {items : List Json} :
    IntegralItems items ↔ ∀ j ∈ items, Integral j := by
  induction items with
  | nil => simp [IntegralItems]
  | cons j js ih => simp [IntegralItems, ih]

theorem integralMembers_iff {members : List (String × Json)} :
    IntegralMembers members ↔ ∀ m ∈ members, Integral m.2 := by
  induction members with
  | nil => simp [IntegralMembers]
  | cons m ms ih => simp [IntegralMembers, ih]

end Json

namespace Number
open Json

theorem le_ofDigitChars (cs : List Char) (n : Nat) : n ≤ Nat.ofDigitChars 10 cs n := by
  induction cs generalizing n with
  | nil => simp
  | cons c cs ih =>
    rw [Nat.ofDigitChars_cons]
    exact Nat.le_trans (by omega) (ih _)

/-- Digits are all taken as long as their value fits. -/
theorem extend_eq {cs : List Char} {n : Nat} (h : Nat.ofDigitChars 10 cs n < unsignedLimit) :
    extend n cs = (Nat.ofDigitChars 10 cs n, cs.length) := by
  induction cs generalizing n with
  | nil => simp [extend]
  | cons c cs ih =>
    rw [Nat.ofDigitChars_cons] at h ⊢
    have hnext : 10 * n + digitValue c < unsignedLimit :=
      Nat.lt_of_le_of_lt (le_ofDigitChars cs _) h
    have hrest : extend (10 * n + digitValue c) cs = _ := ih h
    simp only [extend, hnext, if_true, hrest, List.length_cons]
    rfl

theorem number?_toDigits {n : Nat} (h : n < unsignedLimit) (negative : Bool) :
    Literal.number? ⟨negative, Nat.toDigits 10 n, none, none⟩ = some (integer negative n) := by
  have hvalue : Nat.ofDigitChars 10 (Nat.toDigits 10 n) 0 = n := Nat.ofDigitChars_ten_toDigits
  have hextend : extend 0 (Nat.toDigits 10 n) = (n, (Nat.toDigits 10 n).length) := by
    rw [extend_eq (by omega), hvalue]
  simp [Literal.number?, hextend]

end Number

namespace Json

namespace Token

theorem ofChars_cons {c : Char} {cs rest : List Char} {t : Token} (hblank : isBlank c = false)
    (h : next c cs = (t, some rest)) : ofChars (c :: cs) = t :: ofChars rest := by
  rw [ofChars, hblank]
  simp only [Bool.false_eq_true, if_false]
  split
  · next heq =>
    cases h.symm.trans heq
    rfl
  · next heq => cases h.symm.trans heq

/-! ## Numbers -/

/-- Behind a number the text ends, or a comma or the end of a container follows. -/
def Delimited : List Char → Prop
  | [] => True
  | c :: _ => c = ',' ∨ c = ']' ∨ c = '}'

/-- Only zero is written with a zero in front. -/
theorem head_toDigits {n : Nat} (h : 0 < n) : ∃ c cs, Nat.toDigits 10 n = c :: cs ∧ c ≠ '0' := by
  induction n using Nat.strongRecOn with
  | ind n ih =>
    by_cases hn : n < 10
    · have hdigit : ∀ k < 10, 0 < k → k.digitChar ≠ '0' := by decide
      exact ⟨n.digitChar, [], Nat.toDigits_of_lt_base hn, hdigit n hn h⟩
    · obtain ⟨c, cs, hcs, hc⟩ := ih (n / 10) (by omega) (by omega)
      refine ⟨c, cs ++ [(n % 10).digitChar], ?_, hc⟩
      rw [Nat.toDigits_of_base_le (by decide) (by omega), hcs, List.cons_append]

theorem isDigit_toDigits (n : Nat) : ∀ c ∈ Nat.toDigits 10 n, c.isDigit :=
  fun _ => Nat.isDigit_of_mem_toDigits (by decide) (by decide)

theorem Delimited.isDigit_eq_false {c : Char} {rest : List Char} (h : Delimited (c :: rest)) :
    c.isDigit = false := by
  rcases h with rfl | rfl | rfl <;> decide

theorem digits_append {ds rest : List Char} (hne : ds ≠ []) (hds : ∀ c ∈ ds, c.isDigit)
    (hrest : Delimited rest) : digits (ds ++ rest) = .ok (ds, rest) := by
  have hstop : rest.takeWhile Char.isDigit = [] ∧ rest.dropWhile Char.isDigit = rest := by
    cases rest with
    | nil => simp
    | cons c rest => simp [hrest.isDigit_eq_false]
  have htake : (ds ++ rest).takeWhile Char.isDigit = ds := by
    rw [List.takeWhile_append_of_pos hds, hstop.1, List.append_nil]
  have hdrop : (ds ++ rest).dropWhile Char.isDigit = rest := by
    rw [List.dropWhile_append_of_pos hds, hstop.2]
  rw [digits, htake, hdrop]
  cases ds with
  | nil => contradiction
  | cons d ds => rfl

theorem wholePart_toDigits (n : Nat) {rest : List Char} (hrest : Delimited rest) :
    wholePart (Nat.toDigits 10 n ++ rest) = .ok (Nat.toDigits 10 n, rest) := by
  have hdigits := digits_append Nat.toDigits_ne_nil (isDigit_toDigits n) hrest
  by_cases h : 0 < n
  · obtain ⟨c, cs, hcs, hc⟩ := head_toDigits h
    rw [hcs] at hdigits ⊢
    rw [List.cons_append, wholePart.eq_def]
    split
    · next heq => exact absurd (List.cons.inj heq).1 hc
    · exact hdigits
  · obtain rfl : n = 0 := by omega
    cases rest with
    | nil => rfl
    | cons c rest => simp [wholePart, hrest.isDigit_eq_false]

theorem fractionPart_delimited {rest : List Char} (h : Delimited rest) :
    fractionPart rest = .ok (none, rest) := by
  cases rest with
  | nil => rfl
  | cons c rest => rcases h with rfl | rfl | rfl <;> rfl

theorem powerPart_delimited {rest : List Char} (h : Delimited rest) :
    powerPart rest = .ok (none, rest) := by
  cases rest with
  | nil => rfl
  | cons c rest => rcases h with rfl | rfl | rfl <;> rfl

theorem literal_toDigits (negative : Bool) (n : Nat) {rest : List Char} (h : Delimited rest) :
    literal negative (Nat.toDigits 10 n ++ rest) =
      .ok (⟨negative, Nat.toDigits 10 n, none, none⟩, rest) := by
  simp only [literal, wholePart_toDigits n h, fractionPart_delimited h, powerPart_delimited h,
    ok_bind]
  rfl

theorem next_digit {c : Char} {cs rest : List Char} {l : Number.Literal} (hc : c.isDigit)
    (h : literal false (c :: cs) = .ok (l, rest)) : next c cs = (ofLiteral l, some rest) := by
  unfold next
  split
  case h_12 => simp only [hc, if_true, h]
  all_goals exact absurd hc (by decide)

theorem isBlank_of_isDigit {c : Char} (h : c.isDigit) : isBlank c = false := by
  refine Bool.eq_false_iff.2 ?_
  intro hblank
  simp only [isBlank, Bool.or_eq_true, beq_iff_eq] at hblank
  rcases hblank with ((rfl | rfl) | rfl) | rfl <;> exact absurd h (by decide)

theorem ofChars_int {n : Int} (hn : Fits n) {rest : List Char} (hrest : Delimited rest) :
    ofChars (Number.intChars n ++ rest) = .num (.int n) :: ofChars rest := by
  obtain ⟨hlower, hupper⟩ := hn
  have hlimit : n.natAbs < Number.unsignedLimit := by
    simp only [Number.signedLimit, Number.unsignedLimit] at hlower hupper ⊢
    omega
  have hnumber := Number.number?_toDigits hlimit
  by_cases hneg : n < 0
  · have hvalue : Number.integer true n.natAbs = .int n := by
      have hsmall : ¬ (n.natAbs = 0 ∨ Number.signedLimit < n.natAbs) := by omega
      have habs : -(n.natAbs : Int) = n := by omega
      rw [Number.integer, if_pos rfl, if_neg hsmall, habs]
    have hnext : next '-' (Nat.toDigits 10 n.natAbs ++ rest) = (.num (.int n), some rest) := by
      simp only [next, literal_toDigits true n.natAbs hrest, ofLiteral, hnumber, hvalue]
    rw [Number.intChars, if_pos hneg, List.cons_append]
    exact ofChars_cons rfl hnext
  · have hvalue : Number.integer false n.natAbs = .int n := by
      have habs : (n.natAbs : Int) = n := by omega
      rw [Number.integer, if_neg Bool.false_ne_true, habs]
    have hliteral := literal_toDigits false n.natAbs hrest
    obtain ⟨c, cs, hcs⟩ :=
      List.exists_cons_of_ne_nil (Nat.toDigits_ne_nil (n := n.natAbs) (b := 10))
    have hc : c.isDigit := isDigit_toDigits n.natAbs c (by simp [hcs])
    have hnext : next c (cs ++ rest) = (.num (.int n), some rest) := by
      rw [hcs, List.cons_append] at hliteral
      rw [next_digit hc hliteral, ← hcs, ofLiteral, hnumber, hvalue]
    rw [Number.intChars, if_neg hneg, hcs, List.cons_append]
    exact ofChars_cons (isBlank_of_isDigit hc) hnext

/-! ## Strings -/

theorem codeUnit?_control : ∀ n < 0x20,
    codeUnit? '0' '0' (Nat.digitChar (n / 16)) (Nat.digitChar (n % 16)) = some n := by decide

theorem body_escapeControl {c : Char} (h : c.toNat < 0x20) (cs : List Char) :
    body (escapeControl c.toNat ++ cs) = (body cs).push c := by
  have hlow : isLowSurrogate c.toNat = false := by
    simp only [isLowSurrogate, Bool.and_eq_false_iff, decide_eq_false_iff_not]
    omega
  have hhigh : isHighSurrogate c.toNat = false := by
    simp only [isHighSurrogate, Bool.and_eq_false_iff, decide_eq_false_iff_not]
    omega
  rw [escapeControl, List.append_assoc]
  simp only [List.cons_append, List.nil_append]
  rw [body]
  simp only [codeUnit?_control c.toNat h, hlow, hhigh, Char.ofNat_toNat]
  rfl

/-- A character that is not escaped stands for itself. -/
theorem body_cons {c : Char} (hquote : c ≠ '"') (hbackslash : c ≠ '\\')
    (hcontrol : ¬ c.toNat < 0x20) (cs : List Char) : body (c :: cs) = (body cs).push c := by
  rw [body]
  · simp only [hcontrol, if_false]
  · exact hquote
  all_goals
    intros
    contradiction

/-- What stands for a character in a text is read as that character. -/
theorem body_escapeChar (c : Char) (cs : List Char) :
    body (escapeChar c ++ cs) = (body cs).push c := by
  unfold escapeChar
  split
  case h_6 hquote hbackslash hnewline hreturn htab =>
    by_cases hbackspace : c.toNat = 8
    · obtain rfl : c = Char.ofNat 8 := by rw [← hbackspace, Char.ofNat_toNat]
      simp [body, escaped?]
    by_cases hfeed : c.toNat = 12
    · obtain rfl : c = Char.ofNat 12 := by rw [← hfeed, Char.ofNat_toNat]
      simp [body, escaped?]
    by_cases hcontrol : c.toNat < 0x20
    · simp only [hbackspace, hfeed, hcontrol, if_true, if_false]
      exact body_escapeControl hcontrol cs
    · simp only [hbackspace, hfeed, hcontrol, if_false]
      exact body_cons hquote hbackslash hcontrol cs
  all_goals simp [body, escaped?]

theorem body_writeChars (cs rest : List Char) :
    body (writeChars cs ('"' :: rest)) = .closed cs none rest := by
  induction cs with
  | nil => rw [writeChars, body]
  | cons c cs ih => rw [writeChars, body_escapeChar, ih, Body.push]

theorem ofChars_writeString (s : String) (rest : List Char) :
    ofChars (writeString s rest) = .str s :: ofChars rest := by
  have hnext : next '"' (writeChars s.toList ('"' :: rest)) = (.str s, some rest) := by
    simp only [next, body_writeChars, String.ofList_toList]
  rw [writeString, ofChars_cons rfl hnext]

end Token

/-! ## Trees -/

mutual
/-- The tokens of a tree. -/
def tokens : Json → List Token
  | .null => [.null]
  | .bool b => [.bool b]
  | .num n => [.num n]
  | .str s => [.str s]
  | .arr [] => [.arrayStart, .arrayEnd]
  | .arr (j :: js) => .arrayStart :: (tokens j ++ itemTokens js)
  | .obj [] => [.objectStart, .objectEnd]
  | .obj ((n, j) :: ms) => .objectStart :: .str n :: .colon :: (tokens j ++ memberTokens ms)

/-- The tokens behind the first item. -/
def itemTokens : List Json → List Token
  | [] => [.arrayEnd]
  | j :: js => .comma :: (tokens j ++ itemTokens js)

/-- The tokens behind the first member. -/
def memberTokens : List (String × Json) → List Token
  | [] => [.objectEnd]
  | (n, j) :: ms => .comma :: .str n :: .colon :: (tokens j ++ memberTokens ms)
end

theorem delimited_writeItems (js : List Json) (rest : List Char) :
    Token.Delimited (writeItems js rest) := by
  cases js <;> simp [writeItems, Token.Delimited]

theorem delimited_writeMembers (ms : List (String × Json)) (rest : List Char) :
    Token.Delimited (writeMembers ms rest) := by
  cases ms <;> simp [writeMembers, Token.Delimited]

open Token

mutual
/-- The text of a tree is cut into its tokens, whatever follows it. -/
theorem ofChars_write : (j : Json) → Integral j → ∀ {rest : List Char}, Delimited rest →
    ofChars (j.write rest) = tokens j ++ ofChars rest
  | .null, _, rest, _ => by
    have hnext : next 'n' ('u' :: 'l' :: 'l' :: rest) = (.null, some rest) := rfl
    rw [write, ofChars_cons rfl hnext, tokens, List.singleton_append]
  | .bool true, _, rest, _ => by
    have hnext : next 't' ('r' :: 'u' :: 'e' :: rest) = (.bool true, some rest) := rfl
    rw [write, ofChars_cons rfl hnext, tokens, List.singleton_append]
  | .bool false, _, rest, _ => by
    have hnext : next 'f' ('a' :: 'l' :: 's' :: 'e' :: rest) = (.bool false, some rest) := rfl
    rw [write, ofChars_cons rfl hnext, tokens, List.singleton_append]
  | .num (.int n), h, rest, hrest => ofChars_int h hrest
  | .str s, _, rest, _ => ofChars_writeString s rest
  | .arr [], _, rest, _ => by
    rw [write, ofChars_cons rfl rfl, ofChars_cons rfl rfl]
    rfl
  | .arr (j :: js), h, rest, _ => by
    rw [write, ofChars_cons rfl rfl, ofChars_write j h.1 (delimited_writeItems js rest),
      ofChars_writeItems js h.2, tokens, List.cons_append, List.append_assoc]
  | .obj [], _, rest, _ => by
    rw [write, ofChars_cons rfl rfl, ofChars_cons rfl rfl]
    rfl
  | .obj ((n, j) :: ms), h, rest, _ => by
    rw [write, ofChars_cons rfl rfl, ofChars_writeString, ofChars_cons rfl rfl,
      ofChars_write j h.1 (delimited_writeMembers ms rest), ofChars_writeMembers ms h.2, tokens]
    simp only [List.cons_append, List.append_assoc]

theorem ofChars_writeItems : (js : List Json) → IntegralItems js → ∀ {rest : List Char},
    ofChars (writeItems js rest) = itemTokens js ++ ofChars rest
  | [], _, rest => by
    rw [writeItems, ofChars_cons rfl rfl]
    rfl
  | j :: js, h, rest => by
    rw [writeItems, ofChars_cons rfl rfl, ofChars_write j h.1 (delimited_writeItems js rest),
      ofChars_writeItems js h.2, itemTokens, List.cons_append, List.append_assoc]

theorem ofChars_writeMembers : (ms : List (String × Json)) → IntegralMembers ms →
    ∀ {rest : List Char}, ofChars (writeMembers ms rest) = memberTokens ms ++ ofChars rest
  | [], _, rest => by
    rw [writeMembers, ofChars_cons rfl rfl]
    rfl
  | (n, j) :: ms, h, rest => by
    rw [writeMembers, ofChars_cons rfl rfl, ofChars_writeString, ofChars_cons rfl rfl,
      ofChars_write j h.1 (delimited_writeMembers ms rest), ofChars_writeMembers ms h.2,
      memberTokens]
    simp only [List.cons_append, List.append_assoc]
end

namespace Document

theorem read_step {due next : Due} {stack later : List Frame} {t : Token} {ts : List Token}
    (h : step due stack t = .ok (next, later)) :
    read due stack (t :: ts) = read next later ts := by
  have hopen : ∀ d, due = .more d → stack = [] → False := by
    rintro d rfl rfl
    simp [step] at h
  rw [read, h]
  exact hopen

/-- No tree begins with a token that closes an array. -/
theorem tokens_eq_cons (j : Json) : ∃ t ts, j.tokens = t :: ts ∧ t ≠ .arrayEnd := by
  unfold tokens
  split <;> exact ⟨_, _, rfl, nofun⟩

theorem read_firstItem (j : Json) (stack : List Frame) (ts : List Token) :
    read .firstItem stack (j.tokens ++ ts) = read .value (.array [] :: stack) (j.tokens ++ ts) := by
  obtain ⟨t, later, htokens, ht⟩ := tokens_eq_cons j
  have hstep : step .firstItem stack t = step .value (.array [] :: stack) t := by
    cases t <;> first | rfl | contradiction
  simp only [htokens, List.cons_append, read, hstep]

theorem read_item (j : Json) (before : List Document) (stack : List Frame) (ts : List Token) :
    read (.item before) stack (j.tokens ++ ts) =
      read .value (.array before :: stack) (j.tokens ++ ts) := by
  obtain ⟨t, later, htokens, ht⟩ := tokens_eq_cons j
  have hstep : step (.item before) stack t = step .value (.array before :: stack) t := by
    cases t <;> first | rfl | contradiction
  simp only [htokens, List.cons_append, read, hstep]

mutual
/-- The tokens of a tree are put together to its document, whatever stands around it. -/
theorem read_tokens : (j : Json) → (stack : List Frame) → (ts : List Token) →
    read .value stack (j.tokens ++ ts) = read (.more (ofJson j)) stack ts
  | .null, _, _ | .bool _, _, _ | .num _, _, _ | .str _, _, _ => by
    rw [tokens, List.singleton_append, read_step rfl, ofJson]
  | .arr [], stack, ts => by
    rw [tokens, List.cons_append, read_step rfl, List.singleton_append, read_step rfl, ofJson,
      ofItems]
  | .arr (j :: js), stack, ts => by
    rw [tokens, List.cons_append, read_step rfl, List.append_assoc, read_firstItem, read_tokens j,
      read_itemTokens js, ofJson, ofItems]
    rfl
  | .obj [], stack, ts => by
    rw [tokens, List.cons_append, read_step rfl, List.singleton_append, read_step rfl, ofJson,
      ofMembers]
  | .obj ((n, j) :: ms), stack, ts => by
    rw [tokens, List.cons_append, read_step rfl, List.cons_append, read_step rfl, List.cons_append,
      read_step rfl, List.append_assoc, read_tokens j, read_memberTokens ms, ofJson, ofMembers]
    rfl

theorem read_itemTokens : (js : List Json) → (before : List Document) → (d : Document) →
    (stack : List Frame) → (ts : List Token) →
      read (.more d) (.array before :: stack) (itemTokens js ++ ts) =
        read (.more (.arr ((d :: before).reverse ++ ofItems js) .closed)) stack ts
  | [], before, d, stack, ts => by
    rw [itemTokens, List.singleton_append, read_step rfl, ofItems, List.append_nil]
  | j :: js, before, d, stack, ts => by
    rw [itemTokens, List.cons_append, read_step rfl, List.append_assoc, read_item, read_tokens j,
      read_itemTokens js, ofItems, List.reverse_cons, List.append_assoc]
    rfl

theorem read_memberTokens : (ms : List (String × Json)) →
    (before : List (MemberName × Document)) → (name : MemberName) → (d : Document) →
    (stack : List Frame) → (ts : List Token) →
      read (.more d) (.object before name :: stack) (memberTokens ms ++ ts) =
        read (.more (.obj (((name, d) :: before).reverse ++ ofMembers ms) .closed)) stack ts
  | [], before, name, d, stack, ts => by
    rw [memberTokens, List.singleton_append, read_step rfl, ofMembers, List.append_nil]
  | (n, j) :: ms, before, name, d, stack, ts => by
    rw [memberTokens, List.cons_append, read_step rfl, List.cons_append, read_step rfl,
      List.cons_append, read_step rfl, List.append_assoc, read_tokens j, read_memberTokens ms,
      ofMembers, List.reverse_cons, List.append_assoc]
    rfl
end

/-- A tree whose numbers are integers is read back from its text, to the end of the text. -/
theorem ofText_text {j : Json} (h : Integral j) : ofText j.text = (ofJson j, true) := by
  have hend : Delimited [] := trivial
  have htokens : Token.ofChars (j.write []) = j.tokens ++ [] := by
    rw [ofChars_write j h hend, Token.ofChars]
  have hread : read .value [] (Token.ofChars (j.write [])) = (ofJson j, []) := by
    rw [htokens, read_tokens, read, atEnd]
  simp only [ofText, text, String.toList_ofList, hread, List.isEmpty_nil]

end Document

theorem parse_text {room : Room} {j : Json} (h : Integral j) (hdepth : room.Holds j.depth) :
    parse room j.text = .ok j :=
  parse_of_ofText (Document.ofText_text h) hdepth

end Json
end ServiceBroker
