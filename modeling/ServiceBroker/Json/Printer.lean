import ServiceBroker.Json.Basic

/-!
# Compact JSON text

Nothing but the tokens is written. In strings the quote, the backslash and the controls below
U+0020 are escaped, five of them by a letter; every other character stands for itself.
-/
namespace ServiceBroker.Json

def escapeControl (n : Nat) : List Char :=
  ['\\', 'u', '0', '0'] ++ [Nat.digitChar (n / 16), Nat.digitChar (n % 16)]

def escapeChar (c : Char) : List Char :=
  match c with
  | '"' => ['\\', '"']
  | '\\' => ['\\', '\\']
  | '\n' => ['\\', 'n']
  | '\r' => ['\\', 'r']
  | '\t' => ['\\', 't']
  | c =>
    if c.toNat = 8 then ['\\', 'b']
    else if c.toNat = 12 then ['\\', 'f']
    else if c.toNat < 0x20 then escapeControl c.toNat
    else [c]

/-- Writes the characters of a string in front of `rest`. -/
def writeChars : List Char → List Char → List Char
  | [], rest => rest
  | c :: cs, rest => escapeChar c ++ writeChars cs rest

def writeString (s : String) (rest : List Char) : List Char :=
  '"' :: writeChars s.toList ('"' :: rest)

mutual
/-- Writes a tree in front of `rest`. -/
def write : Json → List Char → List Char
  | .null, rest => 'n' :: 'u' :: 'l' :: 'l' :: rest
  | .bool true, rest => 't' :: 'r' :: 'u' :: 'e' :: rest
  | .bool false, rest => 'f' :: 'a' :: 'l' :: 's' :: 'e' :: rest
  | .num n, rest => n.chars ++ rest
  | .str s, rest => writeString s rest
  | .arr [], rest => '[' :: ']' :: rest
  | .arr (j :: js), rest => '[' :: write j (writeItems js rest)
  | .obj [], rest => '{' :: '}' :: rest
  | .obj ((n, j) :: ms), rest => '{' :: writeString n (':' :: write j (writeMembers ms rest))

/-- Writes the items after the first one. -/
def writeItems : List Json → List Char → List Char
  | [], rest => ']' :: rest
  | j :: js, rest => ',' :: write j (writeItems js rest)

/-- Writes the members after the first one. -/
def writeMembers : List (String × Json) → List Char → List Char
  | [], rest => '}' :: rest
  | (n, j) :: ms, rest => ',' :: writeString n (':' :: write j (writeMembers ms rest))
end

def text (j : Json) : String := String.ofList (j.write [])

end ServiceBroker.Json
