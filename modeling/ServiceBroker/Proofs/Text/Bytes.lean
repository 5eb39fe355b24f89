import Mathlib.Algebra.Ring.Nat
import Mathlib.Data.List.Lex

/-!
# Strings and their bytes

Strings are in the order of their characters. In UTF-8 the first byte of a character tells how many
are behind it, longer encodings begin with larger bytes, and the bits of a character stand in its
bytes from the highest on. So the order of strings is the one of their bytes.
-/
namespace ServiceBroker.Text

/-- The bytes of a string in UTF-8. -/
def bytes (s : String) : List UInt8 := s.toUTF8.data.toList

theorem bytes_eq_flatMap (s : String) : bytes s = s.toList.flatMap String.utf8EncodeChar := by
  conv_lhs => rw [bytes, ← String.ofList_toList (s := s)]
  rw [String.toUTF8_eq_toByteArray, String.toByteArray_ofList, List.utf8Encode,
    List.data_toByteArray]

/-! ## The shape of an encoded character -/

/-- How many bytes follow the first one of a character. -/
def following (n : Nat) : Nat :=
  if n ≤ 0x7f then 0 else if n ≤ 0x7ff then 1 else if n ≤ 0xffff then 2 else 3

/-- How many values the first byte leaves to a character, … -/
def room : Nat → Nat
  | 0 => 0x80
  | 1 => 0x20
  | 2 => 0x10
  | _ => 0x08

/-- … and the least first byte with so many bytes behind it. -/
def mark : Nat → Nat
  | 0 => 0
  | 1 => 0xc0
  | 2 => 0xe0
  | _ => 0xf0

def leading (k n : Nat) : UInt8 := .ofNat (n % room k + mark k)

def continuation (n : Nat) : UInt8 := .ofNat (n % 0x40 + 0x80)

/-- A first byte of some kind, and six more bits in each byte that follows it. -/
def encoded (kind : Nat) : Nat → Nat → List UInt8
  | 0, n => [leading kind n]
  | k + 1, n => encoded kind k (n / 64) ++ [continuation n]

theorem encoded_eq_cons (kind k n : Nat) :
    ∃ rest, encoded kind k n = leading kind (n / 64 ^ k) :: rest := by
  induction k generalizing n with
  | zero => exact ⟨[], by simp [encoded]⟩
  | succ k ih =>
    obtain ⟨rest, hrest⟩ := ih (n / 64)
    refine ⟨rest ++ [continuation n], ?_⟩
    rw [encoded, hrest, Nat.div_div_eq_div_mul, ← Nat.pow_succ']
    rfl

theorem utf8EncodeChar_eq (c : Char) : String.utf8EncodeChar c =
    encoded (following c.val.toNat) (following c.val.toNat) c.val.toNat := by
  unfold String.utf8EncodeChar following
  split_ifs with hone
  · have hmod : c.val.toNat % 0x80 = c.val.toNat := Nat.mod_eq_of_lt (by omega)
    simp only [encoded, leading, room, mark, hmod, Nat.add_zero, if_pos hone]
  all_goals simp only [*, encoded, leading, continuation, room, mark, Nat.div_div_eq_div_mul,
    Nat.reduceMul, if_true, if_false, List.nil_append, List.cons_append]

/-! ## The order of encoded characters -/

/-- The first bytes come before the second ones, whatever follows either. -/
def Precedes (x y : List UInt8) : Prop := ∀ u v, x ++ u < y ++ v

theorem precedes_cons {a b : UInt8} (h : a < b) (x y : List UInt8) : Precedes (a :: x) (b :: y) :=
  fun _ _ => .rel h

theorem ofNat_lt_ofNat {m n : Nat} (hlt : m < n) (hn : n < 0x100) :
    UInt8.ofNat m < UInt8.ofNat n := by
  rw [UInt8.lt_iff_toNat_lt, UInt8.toNat_ofNat', UInt8.toNat_ofNat']
  omega

theorem room_pos (k : Nat) : 0 < room k := by
  unfold room
  split <;> omega

theorem room_add_mark_le (k : Nat) : room k + mark k ≤ 0x100 := by
  unfold room mark
  split <;> omega

/-- A character with fewer bytes comes first. -/
theorem precedes_encoded_of_lt {k l : Nat} (hkl : k < l) (hl : l ≤ 3) (m n : Nat) :
    Precedes (encoded k k m) (encoded l l n) := by
  obtain ⟨rest, hm⟩ := encoded_eq_cons k k m
  obtain ⟨rest', hn⟩ := encoded_eq_cons l l n
  rw [hm, hn]
  have hmarks : ∀ l ≤ 3, ∀ k < l, room k + mark k ≤ mark l := by decide
  have hmark := hmarks l hl k hkl
  have hroom := Nat.mod_lt (m / 64 ^ k) (room_pos k)
  have hroom' := Nat.mod_lt (n / 64 ^ l) (room_pos l)
  have hbound := room_add_mark_le l
  exact precedes_cons (ofNat_lt_ofNat (by omega) (by omega)) _ _

/-- Among characters with as many bytes the smaller one comes first. -/
theorem precedes_encoded (kind k : Nat) {m n : Nat} (hlt : m < n) (hn : n < room kind * 64 ^ k) :
    Precedes (encoded kind k m) (encoded kind k n) := by
  induction k generalizing m n with
  | zero =>
    have hn : n < room kind := by simpa using hn
    have hbound := room_add_mark_le kind
    refine precedes_cons (ofNat_lt_ofNat ?_ ?_) [] []
    · rw [Nat.mod_eq_of_lt hn, Nat.mod_eq_of_lt (Nat.lt_trans hlt hn)]
      omega
    · rw [Nat.mod_eq_of_lt hn]
      omega
  | succ k ih =>
    intro u v
    rw [encoded, encoded, List.append_assoc, List.append_assoc]
    rcases Nat.lt_or_eq_of_le (Nat.div_le_div_right (c := 64) (Nat.le_of_lt hlt)) with hhigh | hhigh
    · have hn : n / 64 < room kind * 64 ^ k :=
        Nat.div_lt_of_lt_mul (by rwa [Nat.pow_succ', Nat.mul_left_comm] at hn)
      exact ih hhigh hn _ _
    · -- All but the last six bits agree.
      rw [hhigh]
      have hlow : continuation m < continuation n := ofNat_lt_ofNat (by omega) (by omega)
      exact List.append_left_lt (.rel hlow)

theorem following_mono {m n : Nat} (h : m ≤ n) : following m ≤ following n := by
  unfold following
  split_ifs <;> omega

theorem following_le (n : Nat) : following n ≤ 3 := by
  unfold following
  split_ifs <;> omega

theorem lt_room {n : Nat} (h : n < 0x110000) : n < room (following n) * 64 ^ following n := by
  unfold following
  split_ifs <;> simp only [room] <;> omega

theorem precedes_utf8EncodeChar {c d : Char} (h : c < d) :
    Precedes (String.utf8EncodeChar c) (String.utf8EncodeChar d) := by
  have hlt : c.val.toNat < d.val.toNat := h
  have hd : d.val.toNat < 0x110000 := by
    rcases d.valid with hd | ⟨-, hd⟩
    · exact Nat.lt_trans hd (by decide)
    · exact hd
  rw [utf8EncodeChar_eq, utf8EncodeChar_eq]
  rcases Nat.lt_or_eq_of_le (following_mono (Nat.le_of_lt hlt)) with hlength | hlength
  · exact precedes_encoded_of_lt hlength (following_le _) _ _
  · rw [hlength]
    exact precedes_encoded _ _ hlt (lt_room hd)

/-! ## The order of strings -/

theorem flatMap_utf8EncodeChar_lt {cs ds : List Char} (h : cs < ds) :
    cs.flatMap String.utf8EncodeChar < ds.flatMap String.utf8EncodeChar := by
  induction h with
  | @nil d ds =>
    obtain ⟨b, bs, hd⟩ := List.exists_cons_of_ne_nil (String.utf8EncodeChar_ne_nil (c := d))
    simp [hd]
  | @cons c cs ds _ ih =>
    rw [List.flatMap_cons, List.flatMap_cons]
    exact List.append_left_lt ih
  | @rel c cs d ds h =>
    rw [List.flatMap_cons, List.flatMap_cons]
    exact precedes_utf8EncodeChar h _ _

/-- The order of strings is the one of their bytes. -/
theorem bytes_lt_iff {s t : String} : bytes s < bytes t ↔ s < t := by
  have hmono : ∀ {s t : String}, s < t → bytes s < bytes t := by
    intro s t h
    rw [bytes_eq_flatMap, bytes_eq_flatMap]
    exact flatMap_utf8EncodeChar_lt h
  refine ⟨fun h => ?_, hmono⟩
  by_contra hlt
  by_cases hts : t < s
  · exact List.lt_asymm h (hmono hts)
  · obtain rfl := String.le_antisymm (String.not_lt.1 hts) (String.not_lt.1 hlt)
    exact List.lt_irrefl _ h

end ServiceBroker.Text
