import ServiceBroker.Json.Printer

/-!
# The parts of a text

A tree is written in front of whatever follows it, and the text of an object is that of its members
in their order.
-/
namespace ServiceBroker
namespace Json

theorem writeChars_append (cs rest more : List Char) :
    writeChars cs (rest ++ more) = writeChars cs rest ++ more := by
  induction cs with
  | nil => rfl
  | cons c cs ih => rw [writeChars, writeChars, ih, List.append_assoc]

theorem writeString_append (s : String) (rest more : List Char) :
    writeString s (rest ++ more) = writeString s rest ++ more := by
  rw [writeString, ← List.cons_append, writeChars_append]
  rfl

mutual
theorem write_append : (j : Json) → (rest more : List Char) →
    j.write (rest ++ more) = j.write rest ++ more
  | .null, _, _ | .bool true, _, _ | .bool false, _, _ | .arr [], _, _ | .obj [], _, _ => rfl
  | .num n, rest, more => (List.append_assoc ..).symm
  | .str s, rest, more => writeString_append s rest more
  | .arr (j :: js), rest, more => by
    rw [write, writeItems_append js, write_append j]
    rfl
  | .obj ((n, j) :: ms), rest, more => by
    rw [write, writeMembers_append ms, write_append j, ← List.cons_append, writeString_append]
    rfl

theorem writeItems_append : (js : List Json) → (rest more : List Char) →
    writeItems js (rest ++ more) = writeItems js rest ++ more
  | [], _, _ => rfl
  | j :: js, rest, more => by
    rw [writeItems, writeItems_append js, write_append j]
    rfl

theorem writeMembers_append : (ms : List (String × Json)) → (rest more : List Char) →
    writeMembers ms (rest ++ more) = writeMembers ms rest ++ more
  | [], _, _ => rfl
  | (n, j) :: ms, rest, more => by
    rw [writeMembers, writeMembers_append ms, write_append j, ← List.cons_append,
      writeString_append]
    rfl
end

/-- The text of a member: its name, a colon and its value. -/
def memberText (m : String × Json) : String := (Json.str m.1).text ++ ":" ++ m.2.text

theorem ofList_writeMember (m : String × Json) (rest : List Char) :
    String.ofList (writeString m.1 (':' :: m.2.write rest)) =
      memberText m ++ String.ofList rest := by
  have hvalue : m.2.write rest = m.2.write [] ++ rest := write_append m.2 [] rest
  have hname : ∀ more, writeString m.1 more = writeString m.1 [] ++ more :=
    writeString_append m.1 []
  rw [hname, hvalue, String.ofList_append, ← List.singleton_append, String.ofList_append,
    String.ofList_append, memberText, String.append_assoc, String.append_assoc]
  rfl

/-- A member and those behind it are written with commas between them. -/
theorem ofList_writeMembers (m : String × Json) (ms : List (String × Json)) :
    memberText m ++ String.ofList (writeMembers ms []) =
      ",".intercalate ((m :: ms).map memberText) ++ "\x7d" := by
  induction ms generalizing m with
  | nil => rw [List.map_singleton, String.intercalate_singleton]; rfl
  | cons m' ms ih =>
    obtain ⟨n, j⟩ := m'
    rw [writeMembers, ← List.singleton_append, String.ofList_append, ofList_writeMember (n, j), ih]
    simp only [List.map_cons, String.intercalate_cons_cons, String.append_assoc]

/-- The text of an object is its members, separated by commas. -/
theorem text_obj (members : List (String × Json)) :
    (obj members).text = "\x7b" ++ ",".intercalate (members.map memberText) ++ "\x7d" := by
  cases members with
  | nil => rfl
  | cons m ms =>
    rw [text, write, ← List.singleton_append, String.ofList_append, ofList_writeMember,
      ofList_writeMembers, String.append_assoc]

end Json
end ServiceBroker
