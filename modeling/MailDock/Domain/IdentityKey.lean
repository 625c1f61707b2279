import MailDock.Domain.Text
import MailDock.Manifest.Payload

/-!
# Identity keys as texts

The functions of `domain/message_identity.py` on the texts of Python, which may hold lone
surrogates and decimal digits of any script.  Elsewhere a key is given by the parts it is built
from; here is why nothing is lost by that.

## Main definitions

- `KeyText.remoteSourceItemKey` — the key of a remote message

## Main results

- `KeyText.remoteSourceItemKey_injective` — different messages have different keys
- `KeyText.remoteSourceItemKey_text` — the key is the text of the parts
-/

namespace MailDock

namespace KeyText

/-- `text.encode("utf-8", "surrogatepass")`. -/
def encodeSurrogatepass (text : PyText) : List UInt8 := Utf8.encode text

def imapFolderKey (folderRawName : PyText) : Except Error (List Char) :=
  if folderRawName = [] then .error ⟨.value,"folder_raw_name must not be empty"⟩
  else .ok (base64Url (encodeSurrogatepass folderRawName))

def imapSourceItemKey (folderRawName : PyText) (uidvalidity uid : Int) : Except Error PyText :=
  if uidvalidity < 0 ∨ uid < 1 then
    .error ⟨.value,"uidvalidity and uid must be non-negative and positive respectively"⟩
  else do
    let folderKey ← imapFolderKey folderRawName
    pure (pyText ("imap:".toList ++ folderKey ++ ':' :: (toString uidvalidity).toList ++
      ':' :: (toString uid).toList))

section
variable (isDecimal : CodePoint → Bool)

/-- `text.isdecimal()`, given the code points of the category `Nd`. -/
def isdecimal (text : PyText) : Bool := !text.isEmpty && text.all isDecimal

def gmailSourceItemKey (gmailMsgid : PyText) : Except Error PyText :=
  if isdecimal isDecimal gmailMsgid then .ok (pyText "gmail:".toList ++ gmailMsgid)
  else .error ⟨.value,"gmail_msgid must be a decimal string"⟩

def remoteSourceItemKey (folderRawName : PyText) (uidvalidity uid : Int)
    (gmailMsgid : Option PyText) : Except Error PyText :=
  match gmailMsgid with
  | some msgid => gmailSourceItemKey isDecimal msgid
  | none => imapSourceItemKey folderRawName uidvalidity uid

end

/-! The base-64 text of the bytes. -/

theorem base64Char_injective : ∀ a < 64, ∀ b < 64, base64Char a = base64Char b → a = b := by
  decide

theorem base64Char_ne_colon : ∀ a < 64, base64Char a ≠ ':' := by decide

theorem colon_notMem_base64Url (bytes : List UInt8) : ':' ∉ base64Url bytes := by
  have hdigit : ∀ a, a < 64 → ':' ≠ base64Char a := fun a ha => (base64Char_ne_colon a ha).symm
  induction bytes using base64Url.induct with
  | case1 => simp [base64Url]
  | case2 a =>
    have ha := a.toNat_lt
    simp only [base64Url,List.mem_cons,List.not_mem_nil,or_false,not_or]
    exact ⟨hdigit _ (by omega),hdigit _ (by omega)⟩
  | case3 a b =>
    have ha := a.toNat_lt
    have hb := b.toNat_lt
    simp only [base64Url,List.mem_cons,List.not_mem_nil,or_false,not_or]
    exact ⟨hdigit _ (by omega),hdigit _ (by omega),hdigit _ (by omega)⟩
  | case4 a b c rest ih =>
    have ha := a.toNat_lt
    have hb := b.toNat_lt
    have hc := c.toNat_lt
    simp only [base64Url,List.mem_cons,not_or]
    exact ⟨hdigit _ (by omega),hdigit _ (by omega),hdigit _ (by omega),hdigit _ (by omega),ih⟩

/-- The padding is redundant: the number of digits tells how many bytes the last group has. -/
theorem base64Url_injective : Function.Injective base64Url := by
  intro s t h
  have hdigit := base64Char_injective
  induction s using base64Url.induct generalizing t with
  | case1 =>
    match t, h with
    | [],_ => rfl
    | [_],h | [_,_],h | _ :: _ :: _ :: _,h => simp [base64Url] at h
  | case2 a =>
    match t, h with
    | [],h | [_,_],h | _ :: _ :: _ :: _,h => simp [base64Url] at h
    | [a'],h =>
      have ha := a.toNat_lt
      have ha' := a'.toNat_lt
      simp only [base64Url,List.cons.injEq,and_true] at h
      have hhigh := hdigit _ (by omega) _ (by omega) h.1
      have hlow := hdigit _ (by omega) _ (by omega) h.2
      rw [UInt8.toNat_inj.mp (show a.toNat = a'.toNat by omega)]
  | case3 a b =>
    match t, h with
    | [],h | [_],h | _ :: _ :: _ :: _,h => simp [base64Url] at h
    | [a',b'],h =>
      have ha := a.toNat_lt
      have ha' := a'.toNat_lt
      have hb := b.toNat_lt
      have hb' := b'.toNat_lt
      simp only [base64Url,List.cons.injEq,and_true] at h
      have hfirst := hdigit _ (by omega) _ (by omega) h.1
      have hmiddle := hdigit _ (by omega) _ (by omega) h.2.1
      have hlast := hdigit _ (by omega) _ (by omega) h.2.2
      rw [UInt8.toNat_inj.mp (show a.toNat = a'.toNat by omega),
        UInt8.toNat_inj.mp (show b.toNat = b'.toNat by omega)]
  | case4 a b c rest ih =>
    match t, h with
    | [],h | [_],h | [_,_],h => simp [base64Url] at h
    | a' :: b' :: c' :: rest',h =>
      have ha := a.toNat_lt
      have ha' := a'.toNat_lt
      have hb := b.toNat_lt
      have hb' := b'.toNat_lt
      have hc := c.toNat_lt
      have hc' := c'.toNat_lt
      simp only [base64Url,List.cons.injEq] at h
      obtain ⟨h₁,h₂,h₃,h₄,hrest⟩ := h
      have hfirst := hdigit _ (by omega) _ (by omega) h₁
      have hsecond := hdigit _ (by omega) _ (by omega) h₂
      have hthird := hdigit _ (by omega) _ (by omega) h₃
      have hfourth := hdigit _ (by omega) _ (by omega) h₄
      rw [UInt8.toNat_inj.mp (show a.toNat = a'.toNat by omega),
        UInt8.toNat_inj.mp (show b.toNat = b'.toNat by omega),
        UInt8.toNat_inj.mp (show c.toNat = c'.toNat by omega),ih hrest]

/-! The keys. -/

/-- What stands before the first separator. -/
theorem append_separator_inj {α : Type} {a : α} {s s' rest rest' : List α} (hs : a ∉ s)
    (hs' : a ∉ s') (h : s ++ a :: rest = s' ++ a :: rest') : s = s' ∧ rest = rest' := by
  induction s generalizing s' with
  | nil =>
    cases s' with
    | nil => exact ⟨rfl,(List.cons.inj h).2⟩
    | cons b s' => exact absurd ((List.cons.inj h).1 ▸ List.mem_cons_self) hs'
  | cons b s ih =>
    cases s' with
    | nil => exact absurd ((List.cons.inj h).1 ▸ List.mem_cons_self) hs
    | cons b' s' =>
      obtain ⟨rfl,htail⟩ := List.cons.inj h
      obtain ⟨rfl,hrest⟩ := ih (fun hmem => hs (List.mem_cons_of_mem _ hmem))
        (fun hmem => hs' (List.mem_cons_of_mem _ hmem)) htail
      exact ⟨rfl,hrest⟩

theorem toString_ofNat (n : Nat) : toString (n : Int) = toString n := rfl

theorem colon_notMem_toString (n : Nat) : ':' ∉ (toString n).toList := by
  intro hcolon
  rw [Nat.toString_eq_ofList_toDigits,String.toList_ofList] at hcolon
  have hdigit := Nat.isDigit_of_mem_toDigits (by decide) (by decide) hcolon
  exact absurd hdigit (by decide)

theorem imapSourceItemKey_eq_ok {folderRawName : PyText} {uidvalidity uid : Int} {key : PyText}
    (h : imapSourceItemKey folderRawName uidvalidity uid = .ok key) :
    ∃ v u : Nat, uidvalidity = v ∧ uid = u ∧
      key = pyText ("imap:".toList ++ (base64Url (encodeSurrogatepass folderRawName) ++
        ':' :: ((toString v).toList ++ ':' :: (toString u).toList))) := by
  unfold imapSourceItemKey at h
  split_ifs at h with hrange
  unfold imapFolderKey at h
  split_ifs at h with hempty
  · cases h
  · obtain ⟨v,rfl⟩ := Int.eq_ofNat_of_zero_le (a := uidvalidity) (by omega)
    obtain ⟨u,rfl⟩ := Int.eq_ofNat_of_zero_le (a := uid) (by omega)
    refine ⟨v,u,rfl,rfl,?_⟩
    rw [← Except.ok.inj h]
    simp only [toString_ofNat,List.append_assoc,List.cons_append]

theorem gmailSourceItemKey_eq_ok {isDecimal : CodePoint → Bool} {msgid key : PyText}
    (h : gmailSourceItemKey isDecimal msgid = .ok key) :
    key = pyText "gmail:".toList ++ msgid := by
  unfold gmailSourceItemKey at h
  split_ifs at h
  exact (Except.ok.inj h).symm

theorem imapSourceItemKey_injective {folderRawName folderRawName' : PyText}
    {uidvalidity uidvalidity' uid uid' : Int} {key : PyText}
    (h : imapSourceItemKey folderRawName uidvalidity uid = .ok key)
    (h' : imapSourceItemKey folderRawName' uidvalidity' uid' = .ok key) :
    folderRawName = folderRawName' ∧ uidvalidity = uidvalidity' ∧ uid = uid' := by
  obtain ⟨v,u,rfl,rfl,hkey⟩ := imapSourceItemKey_eq_ok h
  obtain ⟨v',u',rfl,rfl,hkey'⟩ := imapSourceItemKey_eq_ok h'
  have htext := List.append_cancel_left (pyText_injective (hkey.symm.trans hkey'))
  -- the first separator ends the folder, the second one the UIDVALIDITY
  obtain ⟨hfolder,hnumbers⟩ :=
    append_separator_inj (colon_notMem_base64Url _) (colon_notMem_base64Url _) htext
  obtain ⟨hv,hu⟩ :=
    append_separator_inj (colon_notMem_toString v) (colon_notMem_toString v') hnumbers
  refine ⟨Utf8.encode_injective (base64Url_injective hfolder),?_,?_⟩
  · rw [toString_injective (String.toList_inj.mp hv)]
  · rw [toString_injective (String.toList_inj.mp hu)]

theorem gmailSourceItemKey_ne_imap {isDecimal : CodePoint → Bool} {folderRawName msgid : PyText}
    {uidvalidity uid : Int} {key key' : PyText}
    (h : gmailSourceItemKey isDecimal msgid = .ok key)
    (h' : imapSourceItemKey folderRawName uidvalidity uid = .ok key') : key ≠ key' := by
  obtain ⟨v,u,-,-,hkey'⟩ := imapSourceItemKey_eq_ok h'
  rintro rfl
  have hhead := congrArg List.head? ((gmailSourceItemKey_eq_ok h).symm.trans hkey')
  have hletter : CodePoint.ofChar 'g' = CodePoint.ofChar 'i' := Option.some.inj hhead
  exact absurd (CodePoint.ofChar_injective hletter) (by decide)

/-- Two messages with one key are one message: they have the same Gmail id, or neither has one
and they stand at the same place of the same folder. -/
theorem remoteSourceItemKey_injective {isDecimal : CodePoint → Bool}
    {folderRawName folderRawName' : PyText} {uidvalidity uidvalidity' uid uid' : Int}
    {gmailMsgid gmailMsgid' : Option PyText} {key : PyText}
    (h : remoteSourceItemKey isDecimal folderRawName uidvalidity uid gmailMsgid = .ok key)
    (h' : remoteSourceItemKey isDecimal folderRawName' uidvalidity' uid' gmailMsgid' = .ok key) :
    gmailMsgid = gmailMsgid' ∧ (gmailMsgid = none →
      folderRawName = folderRawName' ∧ uidvalidity = uidvalidity' ∧ uid = uid') := by
  cases gmailMsgid with
  | none =>
    cases gmailMsgid' with
    | none => exact ⟨rfl,fun _ => imapSourceItemKey_injective h h'⟩
    | some msgid' => exact absurd rfl (gmailSourceItemKey_ne_imap h' h)
  | some msgid =>
    cases gmailMsgid' with
    | none => exact absurd rfl (gmailSourceItemKey_ne_imap h h')
    | some msgid' =>
      have hkey := (gmailSourceItemKey_eq_ok h).symm.trans (gmailSourceItemKey_eq_ok h')
      exact ⟨congrArg some (List.append_cancel_left hkey),nofun⟩

/-- A Gmail message met in two folders has one key, and a place in a folder whose name is a lone
surrogate has another one. -/
theorem remoteSourceItemKey_injective_surrogate :
    ∃ key, remoteSourceItemKey (fun c => decide (0x30 ≤ c.val ∧ c.val ≤ 0x39))
        (pyText "INBOX".toList) 7 1 (some (pyText "12".toList)) = .ok key ∧
      remoteSourceItemKey (fun c => decide (0x30 ≤ c.val ∧ c.val ≤ 0x39))
        [0xD800] 9 4 (some (pyText "12".toList)) = .ok key ∧
      some (pyText "12".toList) = some (pyText "12".toList) ∧
      remoteSourceItemKey (fun c => decide (0x30 ≤ c.val ∧ c.val ≤ 0x39)) [0xD800] 9 4 none ≠
        .ok key := by
  have hinbox : remoteSourceItemKey (fun c => decide (0x30 ≤ c.val ∧ c.val ≤ 0x39))
      (pyText "INBOX".toList) 7 1 (some (pyText "12".toList)) =
        .ok (pyText "gmail:12".toList) := by decide
  have hall : remoteSourceItemKey (fun c => decide (0x30 ≤ c.val ∧ c.val ≤ 0x39))
      [0xD800] 9 4 (some (pyText "12".toList)) = .ok (pyText "gmail:12".toList) := by decide
  refine ⟨_,hinbox,hall,(remoteSourceItemKey_injective hinbox hall).1,fun hplace => ?_⟩
  cases (remoteSourceItemKey_injective hinbox hplace).1

/-! The keys of parts. -/

theorem encodeCodePoint_ofChar (c : Char) :
    Utf8.encodeCodePoint (CodePoint.ofChar c) = String.utf8EncodeChar c := by
  have hc : c.val.toNat < 0x110000 := Char.toNat_lt c
  have hval : (CodePoint.ofChar c).val = c.val.toNat := rfl
  simp only [Utf8.encodeCodePoint,String.utf8EncodeChar,hval]
  split_ifs <;> first
    | omega
    | rfl
    | (simp only [List.cons.injEq,Utf8.ofNat_eq_iff,and_true]; omega)

theorem encodeSurrogatepass_pyText (text : List Char) :
    encodeSurrogatepass (pyText text) = Json.utf8Encode text := by
  rw [encodeSurrogatepass,Utf8.encode,pyText,List.flatMap_map,Json.utf8Encode]
  exact List.flatMap_congr fun c _ => encodeCodePoint_ofChar c

/-- A key given by its parts has the text that is made of them. -/
theorem remoteSourceItemKey_text {isDecimal : CodePoint → Bool} {folderRawName : String}
    {uidvalidity uid : Nat} {gmailMsgid : Option Nat} {key : SourceItemKey}
    (hdigits : ∀ c : Char, c.isDigit = true → isDecimal (.ofChar c) = true)
    (h : MailDock.remoteSourceItemKey folderRawName uidvalidity uid gmailMsgid = .ok key) :
    remoteSourceItemKey isDecimal (pyText folderRawName.toList) uidvalidity uid
      (gmailMsgid.map fun msgid => pyText (toString msgid).toList) =
        .ok (pyText key.text.toList) := by
  cases gmailMsgid with
  | none =>
    unfold MailDock.remoteSourceItemKey MailDock.imapSourceItemKey at h
    simp only at h
    split_ifs at h with huid hempty
    have hrange : ¬((uidvalidity : Int) < 0 ∨ (uid : Int) < 1) := by omega
    have hfolder : pyText folderRawName.toList ≠ [] := by
      simpa [pyText] using hempty
    simp only [Option.map_none,remoteSourceItemKey,imapSourceItemKey,if_neg hrange,imapFolderKey,
      if_neg hfolder,encodeSurrogatepass_pyText,← Except.ok.inj h]
    rw [SourceItemKey.text,MailDock.imapFolderKey]
    simp only [toString_ofNat,String.toList_append,String.toList_ofList,
      List.append_assoc]
    rfl
  | some msgid =>
    have hdecimal : isdecimal isDecimal (pyText (toString msgid).toList) = true := by
      have hchars : ∀ c ∈ (toString msgid).toList, isDecimal (.ofChar c) = true := by
        intro c hc
        rw [Nat.toString_eq_ofList_toDigits,String.toList_ofList] at hc
        exact hdigits c (Nat.isDigit_of_mem_toDigits (by decide) (by decide) hc)
      have hne : (toString msgid).toList ≠ [] := by
        rw [Nat.toString_eq_ofList_toDigits,String.toList_ofList]
        exact Nat.toDigits_ne_nil
      simpa [isdecimal,pyText,hne] using hchars
    simp only [Option.map_some,remoteSourceItemKey,gmailSourceItemKey,if_pos hdecimal,
      ← Except.ok.inj h]
    simp [SourceItemKey.text,MailDock.gmailSourceItemKey,pyText]

end KeyText

end MailDock
