import ServiceBroker.Json.Number

/-!
# Tokens of JSON text

`Token.ofChars` cuts a text into tokens up to its end or to the first character that belongs to
none. A reader that takes a value in and one that only skips it do not stumble over the same things:
skipping does not pair surrogates and does not evaluate numbers. Where the two part, the token keeps
the fault of either.
-/
namespace ServiceBroker.Json

/-- Why a text cannot be read on. -/
inductive Fault where
  /-- It ends too early. -/
  | truncated
  /-- It goes on in a way it must not. -/
  | malformed
  deriving DecidableEq, Repr

/-- What a broken token began as. -/
inductive Lead where
  | null
  | truth
  | number
  | string
  deriving DecidableEq, Repr

inductive Token where
  | objectStart
  | objectEnd
  | arrayStart
  | arrayEnd
  | comma
  | colon
  | null
  | bool (b : Bool)
  | num (n : Number)
  /-- A number beyond the doubles. -/
  | outOfRange
  | str (s : String)
  /-- A string that can be skipped but not taken in. -/
  | unpaired (fault : Fault)
  /-- A token that cannot be completed: the fault of taking it in, and that of skipping it. -/
  | broken (lead : Lead) (taken skipped : Fault)
  /-- A character that begins no token. -/
  | stray
  deriving DecidableEq

namespace Token

def isBlank (c : Char) : Bool := c == ' ' || c == '\n' || c == '\r' || c == '\t'

/-- The fault of a text in which something else is due. -/
def faultAt : List Char → Fault
  | [] => .truncated
  | _ :: _ => .malformed

/-! ## Words -/

/-- The rest of the text behind a word that it must go on with. -/
def word? : List Char → List Char → Except Fault (List Char)
  | [], rest => .ok rest
  | _ :: _, [] => .error .truncated
  | w :: ws, c :: cs => if w = c then word? ws cs else .error .malformed

/-! ## Numbers -/

/-- At least one digit, and the text behind the digits. -/
def digits (cs : List Char) : Except Fault (List Char × List Char) :=
  match cs.takeWhile Char.isDigit with
  | [] => .error (faultAt cs)
  | ds => .ok (ds, cs.dropWhile Char.isDigit)

/-- The whole part: a single zero, or digits that begin with none. -/
def wholePart (cs : List Char) : Except Fault (List Char × List Char) :=
  match cs with
  | '0' :: rest =>
    match rest with
    | c :: _ => if c.isDigit then .error .malformed else .ok (['0'], rest)
    | [] => .ok (['0'], rest)
  | _ => digits cs

def fractionPart (cs : List Char) : Except Fault (Option (List Char) × List Char) :=
  match cs with
  | '.' :: rest => do
    let (ds, rest) ← digits rest
    return (some ds, rest)
  | _ => .ok (none, cs)

/-- Whether a minus sign comes first, and the text behind either sign. -/
def sign (cs : List Char) : Bool × List Char :=
  match cs with
  | '-' :: rest => (true, rest)
  | '+' :: rest => (false, rest)
  | _ => (false, cs)

def powerPart (cs : List Char) : Except Fault (Option (Bool × List Char) × List Char) :=
  match cs with
  | c :: rest =>
    if c = 'e' ∨ c = 'E' then do
      let (ds, rest') ← digits (sign rest).2
      return (some ((sign rest).1, ds), rest')
    else .ok (none, cs)
  | [] => .ok (none, [])

def literal (negative : Bool) (cs : List Char) : Except Fault (Number.Literal × List Char) := do
  let (whole, rest) ← wholePart cs
  let (fraction, rest) ← fractionPart rest
  let (power, rest) ← powerPart rest
  return (⟨negative, whole, fraction, power⟩, rest)

def ofLiteral (l : Number.Literal) : Token :=
  match l.number? with
  | some n => .num n
  | none => .outOfRange

/-! ## Strings -/

/-- The inside of a string up to its closing quote. -/
inductive Body where
  /-- The characters, what is wrong with taking them in, and the text behind the string. -/
  | closed (chars : List Char) (fault : Option Fault) (rest : List Char)
  | broken (taken skipped : Fault)

namespace Body

def push (c : Char) : Body → Body
  | .closed cs fault rest => .closed (c :: cs) fault rest
  | .broken taken skipped => .broken taken skipped

/-- Marks that the string cannot be taken in from here on. -/
def flaw (fault : Fault) : Body → Body
  | .closed cs _ rest => .closed cs (some fault) rest
  | .broken _ skipped => .broken fault skipped

end Body

def escaped? (c : Char) : Option Char :=
  match c with
  | '"' => some '"'
  | '\\' => some '\\'
  | '/' => some '/'
  | 'b' => some (Char.ofNat 8)
  | 'f' => some (Char.ofNat 12)
  | 'n' => some '\n'
  | 'r' => some '\r'
  | 't' => some '\t'
  | _ => none

def hexValue? (c : Char) : Option Nat :=
  if '0' ≤ c ∧ c ≤ '9' then some (c.toNat - '0'.toNat)
  else if 'a' ≤ c ∧ c ≤ 'f' then some (c.toNat - 'a'.toNat + 10)
  else if 'A' ≤ c ∧ c ≤ 'F' then some (c.toNat - 'A'.toNat + 10)
  else none

def codeUnit? (a b c d : Char) : Option Nat := do
  return (((← hexValue? a) * 16 + (← hexValue? b)) * 16 + (← hexValue? c)) * 16 + (← hexValue? d)

/-- The fault of a text that does not go on with four hexadecimal digits: it has to be at least four
bytes long to be read at all. -/
def codeUnitFault (cs : List Char) : Fault :=
  if (cs.take 4).foldl (fun n c => n + c.utf8Size) 0 < 4 then .truncated else .malformed

def isHighSurrogate (n : Nat) : Bool := 0xd800 ≤ n && n < 0xdc00

def isLowSurrogate (n : Nat) : Bool := 0xdc00 ≤ n && n < 0xe000

/-- The fault of taking in a text behind a high surrogate that no low one follows. -/
def pairingFault : List Char → Fault
  | [] => .truncated
  | '\\' :: [] => .truncated
  | '\\' :: 'u' :: rest =>
    match rest with
    | a :: b :: c :: d :: _ =>
      if (codeUnit? a b c d).isSome then .malformed else codeUnitFault rest
    | _ => codeUnitFault rest
  | _ => .malformed

/-- The low surrogate that a text goes on with, and the text behind it. -/
def lowSurrogate? : List Char → Option (Nat × List Char)
  | '\\' :: 'u' :: a :: b :: c :: d :: rest =>
    match codeUnit? a b c d with
    | some n => if isLowSurrogate n then some (n, rest) else none
    | none => none
  | _ => none

theorem length_lowSurrogate? {cs rest : List Char} {n : Nat}
    (h : lowSurrogate? cs = some (n, rest)) : rest.length < cs.length := by
  unfold lowSurrogate? at h
  split at h
  · split at h
    · split at h
      · simp only [Option.some.injEq, Prod.mk.injEq] at h
        obtain ⟨_, rfl⟩ := h
        simp only [List.length_cons]
        omega
      · simp at h
    · simp at h
  · simp at h

/-- Reads the inside of a string. -/
def body (cs : List Char) : Body :=
  match cs with
  | [] => .broken .truncated .truncated
  | '"' :: rest => .closed [] none rest
  | '\\' :: [] => .broken .truncated .truncated
  | '\\' :: 'u' :: a :: b :: c :: d :: rest =>
    match codeUnit? a b c d with
    | none => .broken .malformed .malformed
    | some n =>
      if isLowSurrogate n then (body rest).flaw .malformed
      else if isHighSurrogate n then
        match h : lowSurrogate? rest with
        | some (low, rest') =>
          (body rest').push (Char.ofNat (0x10000 + (n - 0xd800) * 0x400 + (low - 0xdc00)))
        | none => (body rest).flaw (pairingFault rest)
      else (body rest).push (Char.ofNat n)
  | '\\' :: 'u' :: rest => .broken (codeUnitFault rest) (codeUnitFault rest)
  | '\\' :: c :: rest =>
    match escaped? c with
    | some c => (body rest).push c
    | none => .broken .malformed .malformed
  | c :: rest =>
    if c.toNat < 0x20 then .broken .malformed .malformed else (body rest).push c
termination_by cs.length
decreasing_by
  all_goals simp only [List.length_cons]
  all_goals try have := length_lowSurrogate? h
  all_goals omega

/-! ## The token stream -/

/-- A token and the text behind it; `none` when nothing behind it can be read. -/
def next (c : Char) (cs : List Char) : Token × Option (List Char) :=
  let word (lead : Lead) (token : Token) (letters : List Char) : Token × Option (List Char) :=
    match word? letters cs with
    | .ok rest => (token, some rest)
    | .error fault => (.broken lead fault fault, none)
  let number (negative : Bool) (cs : List Char) : Token × Option (List Char) :=
    match literal negative cs with
    | .ok (l, rest) => (ofLiteral l, some rest)
    | .error fault => (.broken .number fault .malformed, none)
  match c with
  | '\x7b' => (.objectStart, some cs)
  | '\x7d' => (.objectEnd, some cs)
  | '[' => (.arrayStart, some cs)
  | ']' => (.arrayEnd, some cs)
  | ',' => (.comma, some cs)
  | ':' => (.colon, some cs)
  | 'n' => word .null .null ['u', 'l', 'l']
  | 't' => word .truth (.bool true) ['r', 'u', 'e']
  | 'f' => word .truth (.bool false) ['a', 'l', 's', 'e']
  | '-' => number true cs
  | '"' =>
    match body cs with
    | .closed chars none rest => (.str (String.ofList chars), some rest)
    | .closed _ (some fault) rest => (.unpaired fault, some rest)
    | .broken taken skipped => (.broken .string taken skipped, none)
  | c => if c.isDigit then number false (c :: cs) else (.stray, none)

theorem length_word? {ws cs rest : List Char} (h : word? ws cs = .ok rest) :
    rest.length ≤ cs.length := by
  induction ws generalizing cs with
  | nil => simp only [word?, Except.ok.injEq] at h; simp [h]
  | cons w ws ih =>
    cases cs with
    | nil => simp [word?] at h
    | cons c cs =>
      simp only [word?] at h
      split at h
      · exact Nat.le_succ_of_le (ih h)
      · simp at h

theorem length_digits {cs ds rest : List Char} (h : digits cs = .ok (ds, rest)) :
    rest.length < cs.length := by
  unfold digits at h
  split at h
  · simp at h
  · next hne =>
    simp only [Except.ok.injEq, Prod.mk.injEq] at h
    obtain ⟨_, rfl⟩ := h
    have hsum := congrArg List.length (@List.takeWhile_append_dropWhile _ Char.isDigit cs)
    rw [List.length_append] at hsum
    have hpos : 0 < (cs.takeWhile Char.isDigit).length :=
      List.length_pos_iff.2 hne
    omega

theorem length_wholePart {cs ds rest : List Char} (h : wholePart cs = .ok (ds, rest)) :
    rest.length < cs.length := by
  unfold wholePart at h
  split at h
  · split at h
    · split at h
      · simp at h
      · simp only [Except.ok.injEq, Prod.mk.injEq] at h
        simp [← h.2]
    · simp only [Except.ok.injEq, Prod.mk.injEq] at h
      simp [← h.2]
  · exact length_digits h

theorem length_fractionPart {cs rest : List Char} {ds : Option (List Char)}
    (h : fractionPart cs = .ok (ds, rest)) : rest.length ≤ cs.length := by
  unfold fractionPart at h
  split at h
  · next rest' =>
    cases hd : digits rest' with
    | error => simp [hd, bind, Except.bind] at h
    | ok p =>
      simp only [hd, bind, Except.bind, pure, Except.pure, Except.ok.injEq, Prod.mk.injEq] at h
      have := length_digits (show _ = Except.ok (p.1, p.2) from hd)
      simp only [← h.2, List.length_cons]
      omega
  · simp only [Except.ok.injEq, Prod.mk.injEq] at h
    simp [h.2]

theorem length_sign (cs : List Char) : (sign cs).2.length ≤ cs.length := by
  unfold sign
  split <;> simp

theorem length_powerPart {cs rest : List Char} {ds : Option (Bool × List Char)}
    (h : powerPart cs = .ok (ds, rest)) : rest.length ≤ cs.length := by
  unfold powerPart at h
  split at h
  · split at h
    · next rest' _ =>
      cases hd : digits (sign rest').2 with
      | error => simp [hd, bind, Except.bind] at h
      | ok p =>
        simp only [hd, bind, Except.bind, pure, Except.pure, Except.ok.injEq, Prod.mk.injEq] at h
        have := length_digits (show _ = Except.ok (p.1, p.2) from hd)
        have := length_sign rest'
        simp only [← h.2, List.length_cons]
        omega
    · simp only [Except.ok.injEq, Prod.mk.injEq] at h
      simp [h.2]
  · simp only [Except.ok.injEq, Prod.mk.injEq] at h
    simp [← h.2]

theorem length_literal {negative : Bool} {cs rest : List Char} {l : Number.Literal}
    (h : literal negative cs = .ok (l, rest)) : rest.length < cs.length := by
  unfold literal at h
  cases hw : wholePart cs with
  | error => simp [hw, bind, Except.bind] at h
  | ok w =>
    cases hf : fractionPart w.2 with
    | error => simp [hw, hf, bind, Except.bind] at h
    | ok f =>
      cases hp : powerPart f.2 with
      | error => simp [hw, hf, hp, bind, Except.bind] at h
      | ok p =>
        simp only [hw, hf, hp, bind, Except.bind, pure, Except.pure, Except.ok.injEq,
          Prod.mk.injEq] at h
        have := length_wholePart (show _ = Except.ok (w.1, w.2) from hw)
        have := length_fractionPart (show _ = Except.ok (f.1, f.2) from hf)
        have := length_powerPart (show _ = Except.ok (p.1, p.2) from hp)
        simp only [← h.2]
        omega

/-- The text behind a string that closes. -/
def Body.rest? : Body → Option (List Char)
  | .closed _ _ rest => some rest
  | .broken _ _ => none

@[simp]
theorem Body.rest?_closed (cs rest : List Char) (fault : Option Fault) :
    (Body.closed cs fault rest).rest? = some rest := rfl

@[simp]
theorem Body.rest?_broken (taken skipped : Fault) : (Body.broken taken skipped).rest? = none := rfl

@[simp]
theorem Body.rest?_push (c : Char) (b : Body) : (b.push c).rest? = b.rest? := by cases b <;> rfl

@[simp]
theorem Body.rest?_flaw (fault : Fault) (b : Body) : (b.flaw fault).rest? = b.rest? := by
  cases b <;> rfl

theorem length_body {cs rest : List Char} (h : (body cs).rest? = some rest) :
    rest.length < cs.length := by
  fun_induction body cs <;> simp_all
  all_goals try have := length_lowSurrogate? ‹_›
  all_goals omega

theorem length_next {c : Char} {cs rest : List Char} (h : (next c cs).2 = some rest) :
    rest.length ≤ cs.length := by
  have word (lead : Lead) (token : Token) (letters : List Char)
      (h : (match word? letters cs with
        | .ok rest => (token, some rest)
        | .error fault => (Token.broken lead fault fault, none)).2 = some rest) :
      rest.length ≤ cs.length := by
    split at h
    · next hw => simp only [Option.some.injEq] at h; subst h; exact length_word? hw
    · simp at h
  have number (negative : Bool) (cs' : List Char) (hcs : cs'.length ≤ cs.length + 1)
      (h : (match literal negative cs' with
        | .ok (l, rest) => (ofLiteral l, some rest)
        | .error fault => (Token.broken .number fault .malformed, none)).2 = some rest) :
      rest.length ≤ cs.length := by
    split at h
    · next hl =>
      simp only [Option.some.injEq] at h
      subst h
      have := length_literal hl
      omega
    · simp at h
  unfold next at h
  split at h
  case h_7 => exact word _ _ _ h
  case h_8 => exact word _ _ _ h
  case h_9 => exact word _ _ _ h
  case h_10 => exact number true cs (by omega) h
  case h_11 =>
    split at h
    · next hb =>
      simp only [Option.some.injEq] at h
      exact Nat.le_of_lt (length_body (by simp [hb, h]))
    · next hb =>
      simp only [Option.some.injEq] at h
      exact Nat.le_of_lt (length_body (by simp [hb, h]))
    · simp at h
  case h_12 =>
    split at h
    · exact number false (_ :: cs) (by simp) h
    · simp at h
  all_goals
    simp only [Option.some.injEq] at h
    simp [h]

/-- The tokens of a text. -/
def ofChars (cs : List Char) : List Token :=
  match cs with
  | [] => []
  | c :: cs =>
    if isBlank c then ofChars cs
    else
      match _h : next c cs with
      | (token, some rest) => token :: ofChars rest
      | (token, none) => [token]
termination_by cs.length
decreasing_by
  · simp
  · have := @length_next c cs rest (by rw [_h])
    simp only [List.length_cons]
    omega

end Token
end ServiceBroker.Json
