import LogForwarding.Bytes.Basic
import Mathlib.Data.List.Basic

/-!
The bytes of a text.  They are in the order of the text.  A byte above ASCII never stands alone among
the bytes of a text, so texts that are parted by such bytes can be told from each other although
nothing tells how long they are.
-/

namespace LogForwarding.Bytes

theorem toList_loop_eq (bytes : ByteArray) (i : Nat) (seen : List UInt8) :
    ByteArray.toList.loop bytes i seen = seen.reverse ++ bytes.data.toList.drop i := by
  fun_induction ByteArray.toList.loop bytes i seen with
  | case1 i seen hin ih =>
      have hlength : i < bytes.data.toList.length := by simpa using hin
      rw [ih, List.drop_eq_getElem_cons hlength]
      simp [ByteArray.get!, hin]
  | case2 i seen hout =>
      rw [List.drop_eq_nil_of_le (by simpa using Nat.le_of_not_lt hout)]
      simp

/-- The bytes of a text are those of its characters. -/
theorem ofText_eq (text : String) : ofText text = text.toList.flatMap String.utf8EncodeChar := by
  rw [ofText, ByteArray.toList, toList_loop_eq, String.toUTF8_eq_toByteArray,
    ← String.utf8Encode_toList, List.utf8Encode, List.toList_data_toByteArray]
  rfl

/-- A text is what its bytes spell. -/
theorem toText?_ofText (text : String) : toText? (ofText text) = some text := by
  have hbytes : ByteArray.mk (ofText text).toArray = text.toByteArray := by
    rw [ofText, ByteArray.toList, toList_loop_eq]
    simp
  rw [toText?, hbytes, String.fromUTF8?, dif_pos text.isValidUTF8]
  rfl

@[simp] theorem ofText_append (first rest : String) :
    ofText (first ++ rest) = ofText first ++ ofText rest := by
  simp [ofText_eq]

@[simp] theorem ofText_empty : ofText "" = [] := by
  simp [ofText_eq]

/-- When the bytes of one text begin like those of another, then so do the texts. -/
theorem exists_eq_append {text other : String} {rest : Bytes}
    (heq : ofText text ++ rest = ofText other) :
    ∃ more, other = text ++ more ∧ rest = ofText more := by
  have hbytes : text.toList.utf8Encode ++ rest.toByteArray = other.toList.utf8Encode := by
    rw [List.utf8Encode, List.utf8Encode, ← List.toByteArray_append, ← ofText_eq, ← ofText_eq, heq]
  obtain ⟨more, hmore⟩ := List.isPrefix_of_utf8Encode_append_eq_utf8Encode _ hbytes
  have hother : other = text ++ String.ofList more := by
    apply String.toList_inj.mp
    simp [hmore]
  refine ⟨String.ofList more, hother, ?_⟩
  rw [hother, ofText_append] at heq
  exact List.append_cancel_left heq

/-- The bytes of a character: one of ASCII, or several that are all above ASCII. -/
theorem utf8EncodeChar_eq (c : Char) :
    (∃ byte < 0x80, String.utf8EncodeChar c = [byte]) ∨
      ∃ first second others, String.utf8EncodeChar c = first :: second :: others ∧
        0x80 ≤ second := by
  have habove (n : Nat) : (0x80 : UInt8) ≤ UInt8.ofNat (n % 64 + 128) := by
    rw [UInt8.le_iff_toNat_le, UInt8.toNat_ofNat']
    simp only [UInt8.reduceToNat]
    omega
  rw [String.utf8EncodeChar]
  split
  case isTrue hsmall =>
    refine Or.inl ⟨_, ?_, rfl⟩
    rw [UInt8.lt_iff_toNat_lt, UInt8.toNat_ofNat']
    simp only [UInt8.reduceToNat]
    omega
  case isFalse hlarge =>
    refine Or.inr ?_
    split
    · exact ⟨_, _, _, rfl, habove _⟩
    · split
      · exact ⟨_, _, _, rfl, habove _⟩
      · exact ⟨_, _, _, rfl, habove _⟩

/-- The bytes of characters are in the order of the characters, whatever follows them. -/
theorem utf8EncodeChar_append_lt {c d : Char} (hlt : c < d) (rest others : Bytes) :
    String.utf8EncodeChar c ++ rest < String.utf8EncodeChar d ++ others := by
  have hcode : c.val.toNat < d.val.toNat := hlt
  have hlast : d.val.toNat < 0x110000 := by
    have hvalid := d.valid
    simp only [UInt32.isValidChar, Nat.isValidChar] at hvalid
    omega
  unfold String.utf8EncodeChar
  generalize c.val.toNat = m at *
  generalize d.val.toNat = n at *
  have htwo (k : Nat) : (k / 64 % 32 + 192) % 256 = k / 64 % 32 + 192 := by omega
  have hthree (k : Nat) : (k / 4096 % 16 + 224) % 256 = k / 4096 % 16 + 224 := by omega
  have hfour (k : Nat) (hk : k < 0x110000) :
      (k / 262144 % 8 + 240) % 256 = k / 262144 + 240 := by omega
  have hmore (k : Nat) : (k % 64 + 128) % 256 = k % 64 + 128 := by omega
  dsimp only
  -- Either the first bytes are of different sizes, or the digits of the codes are compared in turn.
  repeat' split
  all_goals
    simp only [List.cons_append, List.nil_append, List.cons_lt_cons_iff, UInt8.lt_iff_toNat_lt,
      ← UInt8.toNat_inj, UInt8.toNat_ofNat', Nat.reducePow, htwo, hthree,
      hfour m (Nat.lt_trans hcode hlast), hfour n hlast, hmore]
    by_cases hsecond : m / 64 = n / 64
    · omega
    · by_cases hfirst : m / 4096 = n / 4096
      · omega
      · omega

/-- The order of texts is the order of their bytes. -/
theorem ofText_lt {text other : String} (hlt : text < other) : ofText text < ofText other := by
  have hchars : text.toList < other.toList := hlt
  rw [ofText_eq, ofText_eq]
  generalize text.toList = cs at hchars
  generalize other.toList = ds at hchars
  induction cs generalizing ds with
  | nil =>
      cases ds with
      | nil => exact absurd hchars (List.lt_irrefl [])
      | cons d ds =>
          rw [List.flatMap_nil, List.flatMap_cons]
          cases hbytes : String.utf8EncodeChar d with
          | nil => exact absurd hbytes String.utf8EncodeChar_ne_nil
          | cons byte bytes => exact List.nil_lt_cons _ _
  | cons c cs ih =>
      cases ds with
      | nil => exact absurd hchars (List.not_lt_nil _)
      | cons d ds =>
          rw [List.flatMap_cons, List.flatMap_cons]
          rcases List.cons_lt_cons_iff.mp hchars with hfirst | ⟨rfl, hrest⟩
          · exact utf8EncodeChar_append_lt hfirst _ _
          · exact List.append_left_lt (ih ds hrest)

theorem ofText_eq_nil {text : String} : ofText text = [] ↔ text = "" := by
  rw [ofText_eq, List.flatMap_eq_nil_iff]
  constructor
  · intro hall
    refine String.toList_eq_nil_iff.mp (List.eq_nil_iff_forall_not_mem.mpr fun c hmem => ?_)
    exact String.utf8EncodeChar_ne_nil (hall c hmem)
  · rintro rfl
    simp

/-- Nothing, or a byte above ASCII with one of ASCII behind it.  No text goes on like this. -/
def Parts (bytes : Bytes) : Prop :=
  bytes = [] ∨ ∃ mark next rest, bytes = mark :: next :: rest ∧ 0x80 ≤ mark ∧ next < 0x80

theorem Parts.eq_empty {bytes before : Bytes} (hparts : Parts bytes) {text : String}
    (heq : bytes = ofText text ++ before) : text = "" := by
  rcases hparts with rfl | ⟨mark, next, rest, rfl, hmark, hnext⟩
  · exact ofText_eq_nil.mp (List.append_eq_nil_iff.mp heq.symm).1
  · rw [ofText_eq] at heq
    cases hchars : text.toList with
    | nil => exact String.toList_eq_nil_iff.mp hchars
    | cons c chars =>
        exfalso
        rw [hchars, List.flatMap_cons, List.append_assoc] at heq
        rcases utf8EncodeChar_eq c with ⟨byte, hbyte, hc⟩ | ⟨first, second, others, hc, hsecond⟩
        · rw [hc] at heq
          obtain ⟨rfl, -⟩ := List.cons.inj heq
          exact absurd hmark (UInt8.not_le.mpr hbyte)
        · rw [hc] at heq
          obtain ⟨-, htail⟩ := List.cons.inj heq
          obtain ⟨rfl, -⟩ := List.cons.inj htail
          exact absurd hsecond (UInt8.not_le.mpr hnext)

/-- A text ends where something stands that parts it from what follows. -/
theorem Parts.append_inj {bytes others : Bytes} (hparts : Parts bytes) (hothers : Parts others)
    {text other : String} (heq : ofText text ++ bytes = ofText other ++ others) :
    text = other ∧ bytes = others := by
  rcases List.append_eq_append_iff.mp heq with ⟨between, hlonger, hbytes⟩ |
    ⟨between, hlonger, hbytes⟩
  · obtain ⟨more, rfl, rfl⟩ := exists_eq_append hlonger.symm
    obtain rfl := hparts.eq_empty hbytes
    exact ⟨(String.append_empty).symm, by simpa using hbytes⟩
  · obtain ⟨more, rfl, rfl⟩ := exists_eq_append hlonger.symm
    obtain rfl := hothers.eq_empty hbytes
    exact ⟨String.append_empty, by simpa using hbytes.symm⟩

/-- The text begins with a character of ASCII. -/
def BeginsPlain (text : String) : Prop :=
  ∃ next rest, ofText text = next :: rest ∧ next < 0x80

theorem BeginsPlain.append {text : String} (hplain : BeginsPlain text) (rest : String) :
    BeginsPlain (text ++ rest) := by
  obtain ⟨next, others, heq, hnext⟩ := hplain
  exact ⟨next, others ++ ofText rest, by rw [ofText_append, heq, List.cons_append], hnext⟩

/-- Texts with a byte in front of each. -/
def marked (texts : List (UInt8 × String)) : Bytes :=
  texts.flatMap fun (mark, text) => mark :: ofText text

/-- The bytes in front of the texts part them from each other. -/
def Parted (texts : List (UInt8 × String)) : Prop :=
  ∀ entry ∈ texts, 0x80 ≤ entry.1 ∧ BeginsPlain entry.2

theorem Parted.parts {texts : List (UInt8 × String)} (hparted : Parted texts) :
    Parts (marked texts) := by
  cases texts with
  | nil => exact Or.inl rfl
  | cons entry texts =>
      obtain ⟨hmark, next, rest, heq, hnext⟩ := hparted entry List.mem_cons_self
      refine Or.inr ⟨entry.1, next, rest ++ marked texts, ?_, hmark, hnext⟩
      simp [marked, heq]

/-- Texts that are parted from each other can be read back from their bytes. -/
theorem Parted.marked_inj {texts others : List (UInt8 × String)} (hparted : Parted texts)
    (hothers : Parted others) (heq : marked texts = marked others) : texts = others := by
  induction texts generalizing others with
  | nil =>
      cases others with
      | nil => rfl
      | cons other others => cases heq
  | cons entry texts ih =>
      cases others with
      | nil => cases heq
      | cons other others =>
          obtain ⟨mark, text⟩ := entry
          obtain ⟨sign, word⟩ := other
          obtain ⟨rfl, hrest⟩ := List.cons.inj heq
          have hlater : Parted texts := fun entry hmem =>
            hparted entry (List.mem_cons_of_mem _ hmem)
          have hlaterOthers : Parted others := fun entry hmem =>
            hothers entry (List.mem_cons_of_mem _ hmem)
          obtain ⟨rfl, hmarked⟩ := hlater.parts.append_inj hlaterOthers.parts hrest
          rw [ih hlater hlaterOthers hmarked]

/-- Two digits tell a byte. -/
theorem hexDigits_inj {byte other : UInt8} (heq : hexDigits byte = hexDigits other) :
    byte = other := by
  have hdigit : ∀ m < 16, ∀ n < 16, Nat.digitChar m = Nat.digitChar n → m = n := by decide
  simp only [hexDigits, List.cons.injEq, and_true] at heq
  have hbyte := byte.toNat_lt
  have hother := other.toNat_lt
  have hhigh := hdigit _ (by omega) _ (by omega) heq.1
  have hlow := hdigit _ (by omega) _ (by omega) heq.2
  exact UInt8.toNat_inj.mp (by omega)

/-- Bytes are known from their hexadecimal text. -/
theorem toHex_inj {bytes others : Bytes} (heq : toHex bytes = toHex others) : bytes = others := by
  have hdigits := String.ofList_inj.mp heq
  induction bytes generalizing others with
  | nil =>
      cases others with
      | nil => rfl
      | cons other others => cases hdigits
  | cons byte bytes ih =>
      cases others with
      | nil => cases hdigits
      | cons other others =>
          rw [List.flatMap_cons, List.flatMap_cons] at hdigits
          obtain ⟨hfirst, hrest⟩ := List.append_inj hdigits rfl
          rw [hexDigits_inj hfirst, ih (congrArg String.ofList hrest) hrest]

end LogForwarding.Bytes
