import ContextSets.Proofs.EntryFiles
import ContextSets.Proofs.JsonForms

/-!
# Entries are read back

An entry is kept as the bytes of its JSON text on one line. Whatever its texts are, the bytes are read
as that entry again, as long as the numbers of its vector are.
-/

namespace ContextSets

namespace Json

/-! ### Bytes -/

/-- The bytes of characters in UTF-8, as characters below 256. -/
def bytesOf (cs : List Char) : List Char :=
  (cs.flatMap String.utf8EncodeChar).map fun byte => Char.ofNat byte.toNat

theorem bytesOf_append (cs more : List Char) : bytesOf (cs ++ more) = bytesOf cs ++ bytesOf more := by
  simp [bytesOf]

/-- What holds of all ASCII characters can be checked one by one. -/
theorem forall_ascii {P : Char → Prop} (h : ∀ n, n < 128 → P (Char.ofNat n)) (c : Char)
    (hc : c.toNat < 128) : P c :=
  Char.ofNat_toNat c ▸ h c.toNat hc

/-- What holds of all bytes can be checked one by one. -/
theorem forall_byte {P : UInt8 → Prop} (h : ∀ n, n < 256 → P (UInt8.ofNat n)) (byte : UInt8) :
    P byte :=
  UInt8.ofNat_toNat (x := byte) ▸ h byte.toNat byte.toNat_lt

theorem utf8EncodeChar_ascii {c : Char} (h : c.toNat < 128) :
    String.utf8EncodeChar c = [c.toNat.toUInt8] :=
  forall_ascii (P := fun c => String.utf8EncodeChar c = [c.toNat.toUInt8]) (by decide +kernel) c h

theorem bytesOf_singleton {c : Char} (h : c.toNat < 128) : bytesOf [c] = [c] :=
  forall_ascii (P := fun c => bytesOf [c] = [c]) (by decide +kernel) c h

theorem bytesOf_ascii {cs : List Char} (h : ∀ c ∈ cs, c.toNat < 128) : bytesOf cs = cs := by
  induction cs with
  | nil => rfl
  | cons c cs ih =>
    obtain ⟨hc, hcs⟩ := List.forall_mem_cons.mp h
    rw [← List.singleton_append, bytesOf_append, ih hcs, bytesOf_singleton hc]

/-- The bytes of characters that are not ASCII are not either. -/
theorem le_of_mem_utf8EncodeChar {c : Char} (h : 128 ≤ c.toNat) {byte : UInt8}
    (hbyte : byte ∈ String.utf8EncodeChar c) : 128 ≤ byte.toNat := by
  have hval : ¬ c.val.toNat ≤ 127 := Nat.not_le.mpr h
  unfold String.utf8EncodeChar at hbyte
  simp only [if_neg hval] at hbyte
  split at hbyte
  · simp only [List.mem_cons, List.not_mem_nil, or_false] at hbyte
    rcases hbyte with rfl | rfl
    all_goals simp; omega
  · split at hbyte
    · simp only [List.mem_cons, List.not_mem_nil, or_false] at hbyte
      rcases hbyte with rfl | rfl | rfl
      all_goals simp; omega
    · simp only [List.mem_cons, List.not_mem_nil, or_false] at hbyte
      rcases hbyte with rfl | rfl | rfl | rfl
      all_goals simp; omega

theorem toList_loop (bytes : ByteArray) (i : Nat) (before : List UInt8) :
    ByteArray.toList.loop bytes i before = before.reverse ++ bytes.data.toList.drop i := by
  induction i, before using ByteArray.toList.loop.induct bytes with
  | case1 i before hlt ih =>
    have hlength : i < bytes.data.toList.length := by simpa using hlt
    have hbyte : bytes.get! i = bytes.data.toList[i] := getElem!_pos bytes.data i hlt
    rw [ByteArray.toList.loop, if_pos hlt, ih, List.drop_eq_getElem_cons hlength, hbyte,
      List.reverse_cons, List.append_assoc, List.singleton_append]
  | case2 i before hge =>
    have hlength : bytes.data.toList.length ≤ i := by simpa using hge
    rw [ByteArray.toList.loop, if_neg hge, List.drop_eq_nil_of_le hlength, List.append_nil]

theorem toList_toUTF8 (cs : List Char) :
    (String.ofList cs).toUTF8.toList = cs.flatMap String.utf8EncodeChar := by
  rw [ByteArray.toList, toList_loop, List.reverse_nil, List.nil_append, List.drop_zero]
  exact List.toList_data_toByteArray

theorem fromUTF8?_utf8EncodeChar (cs : List Char) :
    String.fromUTF8? ⟨(cs.flatMap String.utf8EncodeChar).toArray⟩ = some (String.ofList cs) := by
  have h : (⟨(cs.flatMap String.utf8EncodeChar).toArray⟩ : ByteArray) = cs.utf8Encode := by
    rw [List.utf8Encode, ← List.data_toByteArray]
  rw [h, String.fromUTF8?, dif_pos (ByteArray.isValidUTF8_utf8Encode)]
  rfl

/-! ### Strings in bytes -/

/-- The bytes that pieces stand for. -/
def joinBytes (pieces : List Piece) : Option (List UInt8) :=
  joinPieces ([·.toNat.toUInt8]) (String.singleton · |>.toUTF8.toList) pieces

/-- What makes pieces those of the bytes of a character: they are read off what is written for the
character, and they stand for its bytes among other pieces. -/
structure BytePieces (c : Char) (pieces : List Piece) : Prop where
  read : ∀ rest, readPieces (bytesOf (escaped c) ++ rest) =
    (readPieces rest).map fun (more, rest) => (pieces ++ more, rest)
  join : ∀ more,
    joinBytes (pieces ++ more) = (joinBytes more).map (String.utf8EncodeChar c ++ ·)

theorem digitChar_ascii {n : Nat} (h : n < 16) : (Nat.digitChar n).toNat < 128 := by
  revert n
  decide

theorem escaped_ascii {c : Char} (h : c.toNat < 128) : ∀ d ∈ escaped c, d.toNat < 128 := by
  unfold escaped
  split
  case h_8 =>
    split
    · rename_i hcontrol
      have hhigh : (Nat.digitChar (c.toNat / 16)).toNat < 128 := digitChar_ascii (by omega)
      have hlow : (Nat.digitChar (c.toNat % 16)).toNat < 128 := digitChar_ascii (by omega)
      simp [hhigh, hlow]
    · exact List.forall_mem_singleton.mpr h
  all_goals simp

/-- The piece of an ASCII character stands for its byte. -/
theorem Piece.Spells.joinBytes_cons {piece : Piece} {c : Char} (hpiece : piece.Spells c)
    (h : c.toNat < 128) (more : List Piece) :
    joinBytes (piece :: more) = (joinBytes more).map (String.utf8EncodeChar c ++ ·) := by
  have hjoin := hpiece.join []
  cases piece with
  | char d =>
    obtain rfl : d = c := by simpa [joinPieces] using hjoin
    rw [utf8EncodeChar_ascii h]
    simp only [joinBytes, joinPieces]
  | unit value =>
    unfold joinPieces at hjoin
    by_cases hhigh : isHighUnit value
    · simp [hhigh] at hjoin
    by_cases hlow : isLowUnit value
    · simp [hhigh, hlow] at hjoin
    obtain rfl : Char.ofNat value = c := by simpa [hhigh, hlow, joinPieces] using hjoin
    have hbytes : (String.singleton (Char.ofNat value)).toUTF8.toList =
        String.utf8EncodeChar (Char.ofNat value) :=
      (toList_toUTF8 [Char.ofNat value]).trans (List.flatMap_singleton ..)
    unfold joinBytes
    conv => lhs; unfold joinPieces
    simp only [hhigh, hlow, hbytes, Bool.false_eq_true, ↓reduceIte]

theorem BytePieces.ascii {c : Char} (h : c.toNat < 128) : ∃ pieces, BytePieces c pieces := by
  obtain ⟨piece, hpiece⟩ := exists_spells c
  refine ⟨[piece], fun rest => ?_, hpiece.joinBytes_cons h⟩
  rw [bytesOf_ascii (escaped_ascii h), hpiece.read]
  rfl

theorem escaped_of_le {c : Char} (h : 128 ≤ c.toNat) : escaped c = [c] := by
  unfold escaped
  split
  case h_8 => exact if_neg (by omega)
  all_goals exact absurd h (by decide)

theorem readPieces_high {cs : List Char} (h : ∀ c ∈ cs, 128 ≤ c.toNat) (rest : List Char) :
    readPieces (cs ++ rest) =
      (readPieces rest).map fun (more, rest) => (cs.map .char ++ more, rest) := by
  induction cs with
  | nil => simp
  | cons c cs ih =>
    obtain ⟨hc, hcs⟩ := List.forall_mem_cons.mp h
    have hescaped := escaped_of_le hc
    have hplain : (Piece.char c).Spells c := by
      refine .plain (by omega) ?_ ?_ hescaped
      all_goals
        rintro rfl
        exact absurd hc (by decide)
    have hread := hplain.read (cs ++ rest)
    rw [hescaped, ih hcs] at hread
    rw [List.cons_append]
    refine hread.trans ?_
    cases readPieces rest <;> rfl

theorem joinBytes_chars (bytes : List UInt8) (more : List Piece) :
    joinBytes ((bytes.map fun byte => Char.ofNat byte.toNat).map .char ++ more) =
      (joinBytes more).map (bytes ++ ·) := by
  induction bytes with
  | nil => simp
  | cons byte bytes ih =>
    have hbyte : (Char.ofNat byte.toNat).toNat.toUInt8 = byte :=
      forall_byte (P := fun byte => (Char.ofNat byte.toNat).toNat.toUInt8 = byte)
        (by decide +kernel) byte
    unfold joinBytes at ih ⊢
    rw [List.map_cons, List.map_cons, List.cons_append, joinPieces, ih, hbyte, Option.map_map]
    rfl

theorem BytePieces.high {c : Char} (h : 128 ≤ c.toNat) : ∃ pieces, BytePieces c pieces := by
  have hbytes : bytesOf [c] =
      (String.utf8EncodeChar c).map fun byte => Char.ofNat byte.toNat := by
    rw [bytesOf, List.flatMap_singleton]
  refine ⟨(bytesOf [c]).map .char, fun rest => ?_, fun more => ?_⟩
  · rw [escaped_of_le h]
    refine readPieces_high (fun d hd => ?_) rest
    rw [hbytes] at hd
    obtain ⟨byte, hbyte, rfl⟩ := List.mem_map.mp hd
    have hnat : (Char.ofNat byte.toNat).toNat = byte.toNat :=
      forall_byte (P := fun byte => (Char.ofNat byte.toNat).toNat = byte.toNat)
        (by decide +kernel) byte
    rw [hnat]
    exact le_of_mem_utf8EncodeChar h hbyte
  · rw [hbytes]
    exact joinBytes_chars _ more

theorem readPieces_bytes (cs : List Char) :
    ∃ pieces, joinBytes pieces = some (cs.flatMap String.utf8EncodeChar) ∧
      ∀ rest, readPieces (bytesOf (cs.flatMap escaped) ++ '"' :: rest) = some (pieces, rest) := by
  induction cs with
  | nil => exact ⟨[], rfl, fun rest => rfl⟩
  | cons c cs ih =>
    obtain ⟨pieces, hjoin, hread⟩ := ih
    obtain ⟨first, hfirst⟩ := (lt_or_ge c.toNat 128).elim BytePieces.ascii BytePieces.high
    refine ⟨first ++ pieces, ?_, fun rest => ?_⟩
    · rw [hfirst.join, hjoin]
      rfl
    · rw [List.flatMap_cons, bytesOf_append, List.append_assoc, hfirst.read, hread]
      rfl

/-- A printed string is read back from its bytes. -/
theorem exists_printString_bytes (text : String) :
    ∃ body, bytesOf (printString (some text)) = '"' :: body ∧
      ∀ rest, readString textOfBytes? (body ++ rest) = some (some text, rest) := by
  obtain ⟨pieces, hjoin, hread⟩ := readPieces_bytes text.toList
  have htext : textOfBytes? pieces = some text := by
    show (joinBytes pieces).bind (fun bytes => String.fromUTF8? ⟨bytes.toArray⟩) = some text
    rw [hjoin, Option.bind_some, fromUTF8?_utf8EncodeChar, String.ofList_toList]
  refine ⟨bytesOf (text.toList.flatMap escaped) ++ ['"'], ?_, fun rest => ?_⟩
  · rw [printString, bytesOf_append, bytesOf_append]
    rfl
  · rw [List.append_assoc, List.singleton_append, readString, hread]
    simp only [Option.bind_eq_bind, Option.bind_some, htext]
    rfl

/-! ### Values in bytes -/

/-- The text of a value on one line is read back from its bytes, within as many steps as there are
bytes. -/
def FromBytes (value : Json) : Prop :=
  ∀ fuel rest, (bytesOf value.printCompact).length ≤ fuel → EndsNumber rest →
    readValue textOfBytes? fuel (bytesOf value.printCompact ++ rest) = some (value, rest)

theorem endsNumber_bracket (rest : List Char) : EndsNumber (']' :: rest) := by
  simp [EndsNumber]

theorem endsNumber_brace (rest : List Char) : EndsNumber ('}' :: rest) := by
  simp [EndsNumber]

theorem fromBytes_text (text : String) : (Json.text text).FromBytes := by
  intro fuel rest hfuel _
  obtain ⟨body, hprint, hread⟩ := exists_printString_bytes text
  rw [Json.text, printCompact, hprint] at hfuel ⊢
  obtain ⟨fuel, rfl⟩ : ∃ less, fuel = less + 1 := ⟨fuel - 1, by simp at hfuel; omega⟩
  rw [List.cons_append, readValue, skipGap_cons rfl]
  simp [hread]

theorem readItems_compactItems {items : List Json} (hne : items ≠ [])
    (h : ∀ value ∈ items, value.FromBytes) (fuel : Nat) (rest : List Char)
    (hfuel : (bytesOf (compactItems items)).length < fuel) :
    readItems textOfBytes? fuel (bytesOf (compactItems items) ++ ']' :: rest) =
      some (items, rest) := by
  induction items generalizing fuel with
  | nil => exact absurd rfl hne
  | cons value others ih =>
    obtain ⟨fuel, rfl⟩ : ∃ less, fuel = less + 1 := ⟨fuel - 1, by omega⟩
    have hvalue := h value List.mem_cons_self
    cases others with
    | nil =>
      rw [compactItems] at hfuel ⊢
      exact readItems_last (hvalue fuel _ (by omega) (endsNumber_bracket _)) (skipGap_cons rfl)
    | cons next others =>
      have hcomma : bytesOf [','] = [','] := rfl
      rw [compactItems, bytesOf_append, bytesOf_append, hcomma] at hfuel ⊢
      · simp only [List.length_append, List.length_singleton] at hfuel
        simp only [List.append_assoc, List.singleton_append]
        refine readItems_cons (hvalue fuel _ (by omega) (endsNumber_comma _)) ?_
        exact ih (List.cons_ne_nil _ _) (fun value hmem => h value (List.mem_cons_of_mem _ hmem))
          fuel (by omega)
      all_goals exact List.cons_ne_nil _ _

theorem fromBytes_array {items : List Json} (h : ∀ value ∈ items, value.FromBytes) :
    (array items).FromBytes := by
  intro fuel rest hfuel _
  have hopen : bytesOf ['['] = ['['] := rfl
  have hclose : bytesOf [']'] = [']'] := rfl
  rw [printCompact, bytesOf_append, bytesOf_append, hopen, hclose] at hfuel ⊢
  simp only [List.length_append, List.length_singleton] at hfuel
  obtain ⟨fuel, rfl⟩ : ∃ less, fuel = less + 1 := ⟨fuel - 1, by omega⟩
  cases items with
  | nil => rfl
  | cons item others =>
    simp only [List.append_assoc, List.singleton_append]
    exact readValue_array (readItems_compactItems (List.cons_ne_nil _ _) h fuel rest (by omega))

theorem readMembers_compactMembers {members : List (String × Json)} (hne : members ≠ [])
    (h : ∀ member ∈ members, member.2.FromBytes) (fuel : Nat) (rest : List Char)
    (hfuel : (bytesOf (compactMembers (members.map fun m => (some m.1, m.2)))).length < fuel) :
    readMembers textOfBytes? fuel
      (bytesOf (compactMembers (members.map fun m => (some m.1, m.2))) ++ '}' :: rest) =
        some (members.map fun m => (some m.1, m.2), rest) := by
  induction members generalizing fuel with
  | nil => exact absurd rfl hne
  | cons member others ih =>
    obtain ⟨fuel, rfl⟩ : ∃ less, fuel = less + 1 := ⟨fuel - 1, by omega⟩
    obtain ⟨key, value⟩ := member
    obtain ⟨body, hprint, hread⟩ := exists_printString_bytes key
    have hvalue : value.FromBytes := h _ List.mem_cons_self
    have hcolon : bytesOf [':'] = [':'] := rfl
    cases others with
    | nil =>
      simp only [List.map_cons, List.map_nil, compactMembers, bytesOf_append, hprint, hcolon,
        List.length_append] at hfuel ⊢
      simp only [List.append_assoc, List.cons_append, List.nil_append]
      exact readMembers_last (hread _) (hvalue fuel _ (by omega) (endsNumber_brace _))
        (skipGap_cons rfl)
    | cons next others =>
      have hcomma : bytesOf [','] = [','] := rfl
      have hrest := ih (List.cons_ne_nil _ _)
        (fun member hmem => h member (List.mem_cons_of_mem _ hmem)) fuel
      simp only [List.map_cons] at hfuel hrest ⊢
      rw [compactMembers] at hfuel ⊢
      · simp only [bytesOf_append, hprint, hcolon, hcomma, List.length_append,
          List.length_cons] at hfuel ⊢
        simp only [List.append_assoc, List.cons_append, List.nil_append]
        exact readMembers_cons (hread _) (hvalue fuel _ (by omega) (endsNumber_comma _))
          (hrest (by omega))
      all_goals exact List.cons_ne_nil _ _

theorem fromBytes_obj {members : List (String × Json)} (hne : members ≠ [])
    (h : ∀ member ∈ members, member.2.FromBytes) : (obj members).FromBytes := by
  intro fuel rest hfuel _
  have hopen : bytesOf ['\x7b'] = ['\x7b'] := rfl
  have hclose : bytesOf ['\x7d'] = ['\x7d'] := rfl
  rw [obj, printCompact, bytesOf_append, bytesOf_append, hopen, hclose] at hfuel ⊢
  simp only [List.length_append, List.length_singleton] at hfuel
  obtain ⟨fuel, rfl⟩ : ∃ less, fuel = less + 1 := ⟨fuel - 1, by omega⟩
  simp only [List.append_assoc, List.singleton_append]
  exact readValue_object (readMembers_compactMembers hne h fuel rest (by omega))

/-- The bytes of the text of a value denote the value. -/
theorem FromBytes.readBytes?_compact {value : Json} (h : value.FromBytes) :
    readBytes? value.compact.toUTF8 = some value := by
  have hbytes : value.compact.toUTF8.toList.map (fun byte => Char.ofNat byte.toNat) =
      bytesOf value.printCompact := by
    rw [compact, toList_toUTF8, bytesOf]
  have hread := h (2 * (bytesOf value.printCompact).length + 2) [] (by omega) nofun
  rw [List.append_nil] at hread
  rw [readBytes?, hbytes, readAll?, hread]
  rfl

end Json

/-! ### Entries -/

open Json

/-- A number is read back from its text. -/
def Single.ReadBack (x : Float32) : Prop :=
  (CacheEntry.numberJson x).FromBytes ∧ Json.single? (CacheEntry.numberJson x) = some x

theorem fromBytes_toJson {entry : CacheEntry Embedding}
    (hnumbers : ∀ x ∈ entry.vector, Single.ReadBack x) : entry.toJson.FromBytes := by
  have hvector : (Json.array (entry.vector.map CacheEntry.numberJson)).FromBytes :=
    fromBytes_array fun value hvalue => by
      obtain ⟨x, hx, rfl⟩ := List.mem_map.mp hvalue
      exact (hnumbers x hx).1
  unfold CacheEntry.toJson
  refine fromBytes_obj (List.cons_ne_nil _ _) ?_
  simp only [List.forall_mem_cons]
  exact ⟨fromBytes_text _, fromBytes_text _, hvector, fromBytes_text _, nofun⟩

theorem ofJson?_toJson {entry : CacheEntry Embedding}
    (hinstant : Text.isInstant entry.createdAt = true)
    (hnumbers : ∀ x ∈ entry.vector, Single.ReadBack x) :
    CacheEntry.ofJson? entry.toJson = some entry := by
  have hlist : list? single? (.array (entry.vector.map CacheEntry.numberJson)) =
      some entry.vector := by
    rw [list?, List.mapM_map]
    exact (mapM_eq_some (g := id) fun x hx => (hnumbers x hx).2).trans (by rw [List.map_id])
  obtain ⟨⟨fingerprint, model⟩, vector, createdAt⟩ := entry
  unfold CacheEntry.toJson CacheEntry.ofJson?
  rw [record?_obj (by simp)]
  simp [Table.find, required, text?, Json.text, hlist, hinstant]

/-- An entry is read back from its file if its numbers are. -/
theorem EntryFormat.json_lossless {entry : CacheEntry Embedding}
    (hinstant : Text.isInstant entry.createdAt = true)
    (hnumbers : ∀ x ∈ entry.vector, Single.ReadBack x) : EntryFormat.json.Lossless entry := by
  unfold EntryFormat.Lossless
  simp only [EntryFormat.json]
  rw [(fromBytes_toJson hnumbers).readBytes?_compact, Option.bind_some]
  exact ofJson?_toJson hinstant hnumbers

end ContextSets
