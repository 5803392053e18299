import ContainerdManager.Error
import Mathlib.Data.List.Basic

/-!
# Identifiers

`validate_identifier` of `src/util.rs`, the check on container names and on
ids read back from containerd.
-/

namespace ContainerdManager.Container

def maxIdentifierLen : Nat := 76

/-- The `Debug` text of a character inside a string; a printable one stands for itself. Rust's table
of the unprintable ones above U+00FF is not modelled: these stand for themselves too. -/
def debugChar (c : Char) : List Char :=
  if c = '"' then ['\\', '"']
  else if c = '\\' then ['\\', '\\']
  else if c = '\n' then ['\\', 'n']
  else if c = '\r' then ['\\', 'r']
  else if c = '\t' then ['\\', 't']
  else if c.toNat = 0 then ['\\', '0']
  else if c.toNat < 32 ∨ 127 ≤ c.toNat ∧ c.toNat < 160 ∨ c.toNat = 173 then
    "\\u\x7b".toList ++ Nat.toDigits 16 c.toNat ++ ['\x7d']
  else [c]

/-- The `Debug` text of a string. -/
def debugText (s : String) : String :=
  "\"" ++ String.ofList (s.toList.flatMap debugChar) ++ "\""

/-- The `Debug` text of a byte taken as a character. -/
def debugByte (b : UInt8) : String :=
  let c := Char.ofNat b.toNat
  if c = '\'' then "'\\''" else if c = '"' then "'\"'"
  else "'" ++ String.ofList (debugChar c) ++ "'"

def isAlnum (b : UInt8) : Bool :=
  (48 ≤ b.toNat && b.toNat ≤ 57) || (65 ≤ b.toNat && b.toNat ≤ 90) ||
    (97 ≤ b.toNat && b.toNat ≤ 122)

/-- One of `.`, `_` and `-`. -/
def isSep (b : UInt8) : Bool := b = 46 || b = 95 || b = 45

/-- The loop over the bytes between the first and the last. -/
def validateInner (id : String) : Bool → List UInt8 → Except Error Unit
  | _, [] => .ok ()
  | prevSep, b :: bs =>
    if isAlnum b then validateInner id false bs
    else if isSep b then
      if prevSep then
        .error (.invalidArgument ("identifier contains consecutive separators: " ++ debugText id))
      else validateInner id true bs
    else
      .error (.invalidArgument
        ("identifier contains invalid character " ++ debugByte b ++ ": " ++ debugText id))

/-- One to 76 bytes, alphanumeric at both ends, single separators in between. -/
def validateIdentifier (id : String) : Except Error Unit :=
  let bytes := id.toUTF8.data.toList
  if bytes.isEmpty then .error (.invalidArgument "identifier must not be empty")
  else if bytes.length > maxIdentifierLen then
    .error (.invalidArgument
      ("identifier exceeds " ++ toString maxIdentifierLen ++ " characters: " ++ debugText id))
  else if !(bytes.head?.any isAlnum) || !(bytes.getLast?.any isAlnum) then
    .error (.invalidArgument
      ("identifier must start and end with an alphanumeric: " ++ debugText id))
  else if bytes.length ≤ 2 then .ok ()
  else validateInner id false (bytes.drop 1).dropLast

theorem validateInner_error {id : String} {prevSep : Bool} {bytes : List UInt8} {e : Error}
    (h : validateInner id prevSep bytes = .error e) : ∃ message, e = .invalidArgument message := by
  induction bytes generalizing prevSep with
  | nil => cases h
  | cons b bytes ih =>
    unfold validateInner at h
    split at h
    · exact ih h
    · split at h
      · split at h
        · cases h
          exact ⟨_, rfl⟩
        · exact ih h
      · cases h
        exact ⟨_, rfl⟩

/-- A text that is no identifier is an invalid argument. -/
theorem validateIdentifier_error {id : String} {e : Error} (h : validateIdentifier id = .error e) :
    ∃ message, e = .invalidArgument message := by
  unfold validateIdentifier at h
  dsimp only at h
  split at h
  · cases h
    exact ⟨_, rfl⟩
  · split at h
    · cases h
      exact ⟨_, rfl⟩
    · split at h
      · cases h
        exact ⟨_, rfl⟩
      · split at h
        · cases h
        · exact validateInner_error h

/-! ## What an identifier is made of -/

/-- The bytes of a text are those of its characters. -/
theorem mem_bytes_of_mem {s : String} {c : Char} (hc : c ∈ s.toList) {b : UInt8}
    (hb : b ∈ String.utf8EncodeChar c) : b ∈ s.toUTF8.data.toList := by
  have hs : s.toUTF8 = s.toList.utf8Encode := String.utf8Encode_toList.symm
  rw [hs, List.utf8Encode, List.data_toByteArray]
  simp only [List.mem_flatMap]
  exact ⟨c, hc, hb⟩

theorem validateInner_ok {id : String} {prevSep : Bool} {bytes : List UInt8}
    (h : validateInner id prevSep bytes = .ok ()) :
    ∀ b ∈ bytes, isAlnum b = true ∨ isSep b = true := by
  induction bytes generalizing prevSep with
  | nil => simp
  | cons b bytes ih =>
    rw [validateInner] at h
    intro b' hb'
    split at h
    · rename_i halnum
      rcases List.mem_cons.mp hb' with rfl | hb'
      · exact .inl halnum
      · exact ih h b' hb'
    · split at h
      · rename_i hsep
        split at h
        · cases h
        · rcases List.mem_cons.mp hb' with rfl | hb'
          · exact .inr hsep
          · exact ih h b' hb'
      · cases h

theorem validateIdentifier_bytes {id : String} (h : validateIdentifier id = .ok ()) :
    ∀ b ∈ id.toUTF8.data.toList, isAlnum b = true ∨ isSep b = true := by
  unfold validateIdentifier at h
  dsimp only at h
  generalize id.toUTF8.data.toList = bytes at h
  split at h
  · cases h
  split at h
  · cases h
  split at h
  · cases h
  rename_i hends
  cases bytes with
  | nil => simp
  | cons first rest =>
    have hfirst : isAlnum first = true := by
      cases hf : isAlnum first with
      | true => rfl
      | false => simp [hf] at hends
    rcases List.eq_nil_or_concat rest with rfl | ⟨inner, last, rfl⟩
    · simpa using Or.inl hfirst
    · have hlast : isAlnum last = true := by
        cases hl : isAlnum last with
        | true => rfl
        | false => simp [List.getLast?_cons, hl] at hends
      have hinner : ∀ b ∈ inner, isAlnum b = true ∨ isSep b = true := by
        split at h
        · rename_i hlen
          have hnil : inner = [] := by
            cases inner with
            | nil => rfl
            | cons _ _ => simp at hlen
          simp [hnil]
        · rw [List.drop_one, List.tail_cons, List.concat_eq_append, List.dropLast_concat] at h
          exact validateInner_ok h
      intro b hb
      simp only [List.concat_eq_append, List.mem_cons, List.mem_append, List.not_mem_nil,
        or_false] at hb
      rcases hb with rfl | hb | rfl
      · exact .inl hfirst
      · exact hinner b hb
      · exact .inl hlast

/-- A character with another byte is not in an identifier. -/
theorem notMem_of_byte {id : String} (h : validateIdentifier id = .ok ()) {c : Char} (b : UInt8)
    (hb : b ∈ String.utf8EncodeChar c) (hbad : ¬ (isAlnum b = true ∨ isSep b = true)) :
    c ∉ id.toList :=
  fun hmem => hbad (validateIdentifier_bytes h b (mem_bytes_of_mem hmem hb))

theorem lt_of_identifier {b : UInt8} (h : isAlnum b = true ∨ isSep b = true) : b.toNat < 128 := by
  simp only [isAlnum, isSep, Bool.or_eq_true, Bool.and_eq_true, decide_eq_true_eq] at h
  rcases h with ((h | h) | h) | ((rfl | rfl) | rfl)
  · omega
  · omega
  · omega
  · decide
  · decide
  · decide

/-- Past the first 128, a character has a byte from 192 on. -/
theorem exists_high_byte {c : Char} (h : 128 ≤ c.toNat) :
    ∃ b ∈ String.utf8EncodeChar c, 128 ≤ b.toNat := by
  have hv : ¬ c.val.toNat ≤ 127 := Nat.not_le.mpr h
  simp only [String.utf8EncodeChar, if_neg hv]
  split
  · refine ⟨_, List.mem_cons_self, ?_⟩
    rw [UInt8.toNat_ofNat']
    omega
  · split
    · refine ⟨_, List.mem_cons_self, ?_⟩
      rw [UInt8.toNat_ofNat']
      omega
    · refine ⟨_, List.mem_cons_self, ?_⟩
      rw [UInt8.toNat_ofNat']
      omega

/-- A character of an identifier is one of its bytes. -/
theorem identifier_char {id : String} (h : validateIdentifier id = .ok ()) {c : Char}
    (hc : c ∈ id.toList) :
    ∃ b : UInt8, (isAlnum b = true ∨ isSep b = true) ∧ Char.ofNat b.toNat = c := by
  have hlt : c.toNat < 128 := by
    by_contra hge
    obtain ⟨b, hb, hhigh⟩ := exists_high_byte (Nat.le_of_not_lt hge)
    have := lt_of_identifier (validateIdentifier_bytes h b (mem_bytes_of_mem hc hb))
    omega
  have hmem : UInt8.ofNat c.toNat ∈ String.utf8EncodeChar c := by
    have hv : c.val.toNat ≤ 127 := Nat.le_of_lt_succ hlt
    simp only [String.utf8EncodeChar, if_pos hv]
    exact List.mem_singleton_self _
  refine ⟨UInt8.ofNat c.toNat, validateIdentifier_bytes h _ (mem_bytes_of_mem hc hmem), ?_⟩
  rw [UInt8.toNat_ofNat', Nat.mod_eq_of_lt (by omega), Char.ofNat_toNat]

/-- **An identifier has no slash.** -/
theorem slash_notMem {id : String} (h : validateIdentifier id = .ok ()) : '/' ∉ id.toList :=
  notMem_of_byte h 47 (by decide) (by decide)

end ContainerdManager.Container
