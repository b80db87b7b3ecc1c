import Mathlib.Algebra.Group.Nat.Defs
import Mathlib.Data.List.Basic
import Mathlib.Data.Nat.Notation
import Mathlib.Order.Nat

/-!
# Capture keys

The key of a capture is the digest of its sender, its route, its body and, for a retry,
the operation it repeats, joined into one text.
-/

namespace RatatoskrTelegram

section Separators

variable {α : Type} {x : α} {a a' b b' : List α}

theorem append_cons_inj_first (ha : x ∉ a) (ha' : x ∉ a') (h : a ++ x :: b = a' ++ x :: b') :
    a = a' ∧ b = b' := by
  induction a generalizing a' with
  | nil =>
    cases a' with
    | nil => exact ⟨rfl,(List.cons.inj h).2⟩
    | cons y a' =>
      have hhead : x = y := (List.cons.inj h).1
      exact absurd (hhead ▸ List.mem_cons_self) ha'
  | cons y a ih =>
    cases a' with
    | nil =>
      have hhead : y = x := (List.cons.inj h).1
      exact absurd (hhead ▸ List.mem_cons_self) ha
    | cons z a' =>
      have hsplit := List.cons.inj h
      have hrest := ih (fun hx => ha (List.mem_cons_of_mem y hx))
        (fun hx => ha' (List.mem_cons_of_mem z hx)) hsplit.2
      exact ⟨by rw [hsplit.1,hrest.1],hrest.2⟩

theorem append_cons_inj_last (hb : x ∉ b) (hb' : x ∉ b') (h : a ++ x :: b = a' ++ x :: b') :
    a = a' ∧ b = b' := by
  have hreverse : b.reverse ++ x :: a.reverse = b'.reverse ++ x :: a'.reverse := by
    have h' := congrArg List.reverse h
    simpa using h'
  have hsplit := append_cons_inj_first (by simpa using hb) (by simpa using hb') hreverse
  exact ⟨List.reverse_injective hsplit.2,List.reverse_injective hsplit.1⟩

end Separators

def natText (n : ℕ) : List Char := Nat.toDigits 10 n

def intText (n : ℤ) : List Char := if n < 0 then '-' :: natText n.natAbs else natText n.toNat

/-- The last `width` hexadecimal digits. -/
def hexDigits : ℕ → ℕ → List Char
  | 0, _ => []
  | width + 1, n => hexDigits width (n / 16) ++ [Nat.digitChar (n % 16)]

theorem natText_inj {m n : ℕ} (h : natText m = natText n) : m = n := by
  have hm : Nat.ofDigitChars 10 (natText m) 0 = m := Nat.ofDigitChars_toDigits (by decide) (by decide)
  have hn : Nat.ofDigitChars 10 (natText n) 0 = n := Nat.ofDigitChars_toDigits (by decide) (by decide)
  rw [← hm,h,hn]

theorem natText_isDigit {n : ℕ} {c : Char} (h : c ∈ natText n) : c.isDigit = true :=
  Nat.isDigit_of_mem_toDigits (by decide) (by decide) h

theorem natText_ne_cons_minus (n : ℕ) (text : List Char) : natText n ≠ '-' :: text := by
  intro h
  have hdigit : '-'.isDigit = true := natText_isDigit (by rw [h]; exact List.mem_cons_self)
  exact absurd hdigit (by decide)

theorem intText_inj {m n : ℤ} (h : intText m = intText n) : m = n := by
  unfold intText at h
  split at h
  · split at h
    · have hdigits := natText_inj (List.cons.inj h).2
      omega
    · exact absurd h.symm (natText_ne_cons_minus _ _)
  · split at h
    · exact absurd h (natText_ne_cons_minus _ _)
    · have hdigits := natText_inj h
      omega

theorem bar_not_mem_intText (n : ℤ) : '|' ∉ intText n := by
  intro h
  have hbar : '|'.isDigit = true := by
    unfold intText at h
    split at h
    · rcases List.mem_cons.mp h with hminus | hdigit
      · exact absurd hminus (by decide)
      · exact natText_isDigit hdigit
    · exact natText_isDigit h
  exact absurd hbar (by decide)

@[simp] theorem length_hexDigits (width n : ℕ) : (hexDigits width n).length = width := by
  induction width generalizing n with
  | zero => rfl
  | succ width ih => simp [hexDigits,ih]

theorem digitChar_inj {m n : ℕ} (hm : m < 16) (hn : n < 16)
    (h : Nat.digitChar m = Nat.digitChar n) : m = n := by
  have hall : ∀ a < 16, ∀ b < 16, Nat.digitChar a = Nat.digitChar b → a = b := by decide +kernel
  exact hall m hm n hn h

theorem hexDigits_inj {width m n : ℕ} (hm : m < 16 ^ width) (hn : n < 16 ^ width)
    (h : hexDigits width m = hexDigits width n) : m = n := by
  induction width generalizing m n with
  | zero =>
    simp only [Nat.pow_zero] at hm hn
    omega
  | succ width ih =>
    simp only [hexDigits] at h
    have hsplit := List.append_inj h (by simp)
    rw [Nat.pow_succ] at hm hn
    have hquot := ih (by omega) (by omega) hsplit.1
    have hrest := digitChar_inj (by omega) (by omega) (List.cons.inj hsplit.2).1
    omega

def uuidText (id : BitVec 128) : List Char :=
  hexDigits 8 (id.toNat / 2 ^ 96) ++ '-' :: (hexDigits 4 (id.toNat / 2 ^ 80 % 2 ^ 16) ++
    '-' :: (hexDigits 4 (id.toNat / 2 ^ 64 % 2 ^ 16) ++
    '-' :: (hexDigits 4 (id.toNat / 2 ^ 48 % 2 ^ 16) ++
      '-' :: hexDigits 12 (id.toNat % 2 ^ 48))))

theorem uuidText_inj {a b : BitVec 128} (h : uuidText a = uuidText b) : a = b := by
  have ha := a.isLt
  have hb := b.isLt
  unfold uuidText at h
  have h1 := List.append_inj h (by simp)
  have h2 := List.append_inj (List.cons.inj h1.2).2 (by simp)
  have h3 := List.append_inj (List.cons.inj h2.2).2 (by simp)
  have h4 := List.append_inj (List.cons.inj h3.2).2 (by simp)
  have e1 := hexDigits_inj (by omega) (by omega) h1.1
  have e2 := hexDigits_inj (by omega) (by omega) h2.1
  have e3 := hexDigits_inj (by omega) (by omega) h3.1
  have e4 := hexDigits_inj (by omega) (by omega) h4.1
  have e5 := hexDigits_inj (by omega) (by omega) (List.cons.inj h4.2).2
  apply BitVec.eq_of_toNat_eq
  omega

/-- `serde_json::Value`; an object holds its members in the order of their keys. -/
inductive JsonValue
  | null
  | bool (value : Bool)
  | number (literal : List Char)
  | string (text : List Char)
  | array (items : List JsonValue)
  | object (members : List (List Char × JsonValue))

namespace JsonValue

def insert (key : List Char) (value : JsonValue) :
    List (List Char × JsonValue) → List (List Char × JsonValue)
  | [] => [(key,value)]
  | (k,v) :: members =>
    if key = k then (k,value) :: members
    else if key < k then (key,value) :: (k,v) :: members
    else (k,v) :: insert key value members

def ofMembers (members : List (List Char × JsonValue)) : JsonValue :=
  .object (members.foldl (fun map member => insert member.1 member.2 map) [])

def escape (c : Char) : List Char :=
  if c = '\x22' then ['\x5c','\x22']
  else if c = '\x5c' then ['\x5c','\x5c']
  else if c = '\x08' then ['\x5c','b']
  else if c = '\x0c' then ['\x5c','f']
  else if c = '\n' then ['\x5c','n']
  else if c = '\r' then ['\x5c','r']
  else if c = '\t' then ['\x5c','t']
  else if c.toNat < 32 then ['\x5c','u'] ++ hexDigits 4 c.toNat
  else [c]

def quote (text : List Char) : List Char := '\x22' :: text.flatMap escape ++ ['\x22']

mutual

def write : JsonValue → List Char
  | null => "null".toList
  | bool true => "true".toList
  | bool false => "false".toList
  | number literal => literal
  | string text => quote text
  | array items => '[' :: writeItems items ++ [']']
  | object members => '\x7b' :: writeMembers members ++ ['\x7d']

def writeItems : List JsonValue → List Char
  | [] => []
  | [item] => write item
  | item :: items => write item ++ ',' :: writeItems items

def writeMembers : List (List Char × JsonValue) → List Char
  | [] => []
  | [(key,value)] => quote key ++ ':' :: write value
  | (key,value) :: members => quote key ++ ':' :: write value ++ ',' :: writeMembers members

end

end JsonValue

inductive CaptureSource
  | url (url : List Char)
  | blob (ownerService digestHex mediaType : List Char) (lengthBytes : ℕ)
  deriving DecidableEq

structure CaptureSubmission where
  idempotencyKey : List Char
  source : CaptureSource
  origin : Option JsonValue

open JsonValue in
def CaptureSubmission.requestParts (submission : CaptureSubmission) : List Char × JsonValue :=
  let (path,body) :=
    match submission.source with
    | .url url => ("/v1/captures".toList,ofMembers [("url".toList,string url)])
    | .blob ownerService digestHex mediaType lengthBytes =>
      ("/v1/captures/blobs".toList,ofMembers [("blob".toList,ofMembers [
        ("owner_service".toList,string ownerService),
        ("digest".toList,ofMembers [("algorithm".toList,string "sha256".toList),
          ("hex".toList,string digestHex)]),
        ("media_type".toList,string mediaType),
        ("length_bytes".toList,number (natText lengthBytes))])])
  match body, submission.origin with
  | .object map, some origin => (path,.object (JsonValue.insert "origin".toList origin map))
  | _, _ => (path,body)

section Parts

variable {key : List Char}

def blobBody (ownerService digestHex mediaType : List Char) (lengthBytes : ℕ) : JsonValue :=
  .object [("digest".toList,.object [("algorithm".toList,.string "sha256".toList),
      ("hex".toList,.string digestHex)]),
    ("length_bytes".toList,.number (natText lengthBytes)),("media_type".toList,.string mediaType),
    ("owner_service".toList,.string ownerService)]

theorem requestParts_url (url : List Char) (origin : Option JsonValue) :
    (⟨key,.url url,origin⟩ : CaptureSubmission).requestParts = ("/v1/captures".toList,.object
      (origin.toList.map (("origin".toList,·)) ++ [("url".toList,.string url)])) := by
  cases origin <;> rfl

theorem requestParts_blob (ownerService digestHex mediaType : List Char) (lengthBytes : ℕ)
    (origin : Option JsonValue) :
    (⟨key,.blob ownerService digestHex mediaType lengthBytes,origin⟩ :
        CaptureSubmission).requestParts = ("/v1/captures/blobs".toList,.object
      (("blob".toList,blobBody ownerService digestHex mediaType lengthBytes) ::
        origin.toList.map (("origin".toList,·)))) := by
  cases origin <;> rfl

theorem blobBody_inj {o h m o' h' m' : List Char} {n n' : ℕ}
    (heq : blobBody o h m n = blobBody o' h' m' n') : o = o' ∧ h = h' ∧ m = m' ∧ n = n' := by
  simp only [blobBody,JsonValue.object.injEq,List.cons.injEq,Prod.mk.injEq,JsonValue.string.injEq,
    JsonValue.number.injEq,true_and,and_true] at heq
  obtain ⟨hhex,hlength,hmedia,howner⟩ := heq
  exact ⟨howner,hhex,hmedia,natText_inj hlength⟩

theorem originMember_inj {origin origin' : Option JsonValue}
    (h : origin.toList.map (("origin".toList,·)) = origin'.toList.map (("origin".toList,·))) :
    origin = origin' := by
  cases origin <;> cases origin' <;> simp_all

theorem requestParts_inj {s s' : CaptureSubmission} (h : s.requestParts = s'.requestParts) :
    s.source = s'.source ∧ s.origin = s'.origin := by
  obtain ⟨key,source,origin⟩ := s
  obtain ⟨key',source',origin'⟩ := s'
  have hpaths : "/v1/captures".toList ≠ "/v1/captures/blobs".toList := by decide
  cases source with
  | url url =>
    cases source' with
    | url url' =>
      rw [requestParts_url,requestParts_url] at h
      have hmembers := JsonValue.object.inj (Prod.mk.inj h).2
      have hsplit := List.append_inj' hmembers rfl
      have hurl : url = url' := by simpa using hsplit.2
      exact ⟨congrArg CaptureSource.url hurl,originMember_inj hsplit.1⟩
    | blob =>
      rw [requestParts_url,requestParts_blob] at h
      exact absurd (Prod.mk.inj h).1 hpaths
  | blob o d m n =>
    cases source' with
    | url =>
      rw [requestParts_url,requestParts_blob] at h
      exact absurd (Prod.mk.inj h).1.symm hpaths
    | blob o' d' m' n' =>
      rw [requestParts_blob,requestParts_blob] at h
      have hmembers := List.cons.inj (JsonValue.object.inj (Prod.mk.inj h).2)
      have hblob := blobBody_inj (Prod.mk.inj hmembers.1).2
      refine ⟨?_,originMember_inj hmembers.2⟩
      simp only [hblob]

theorem requestParts_path (s : CaptureSubmission) :
    s.requestParts.1 = "/v1/captures".toList ∨ s.requestParts.1 = "/v1/captures/blobs".toList := by
  obtain ⟨key,source,origin⟩ := s
  cases source with
  | url url => exact .inl (by rw [requestParts_url])
  | blob => exact .inr (by rw [requestParts_blob])

theorem requestParts_write (s : CaptureSubmission) :
    ∃ inner, s.requestParts.2.write = inner ++ ['\x7d'] := by
  obtain ⟨key,source,origin⟩ := s
  cases source with
  | url url =>
    rw [requestParts_url,JsonValue.write]
    exact ⟨_,rfl⟩
  | blob =>
    rw [requestParts_blob,JsonValue.write]
    exact ⟨_,rfl⟩

end Parts

/-- `digest`: the digest in lowercase hexadecimal. -/
def digestText (sha256 : List Char → List UInt8) (input : List Char) : List Char :=
  (sha256 input).flatMap fun byte => hexDigits 2 byte.toNat

/-- What tells a deliberate retry of a failed operation from the submission itself. -/
def retrySalt : Option (BitVec 128) → List Char
  | some failed => "|retry:".toList ++ uuidText failed
  | none => []

def keyPreimage (telegramUserId : ℤ) (submission : CaptureSubmission)
    (retryOf : Option (BitVec 128)) : List Char :=
  let request := submission.requestParts
  "capture.v2|".toList ++ (intText telegramUserId ++ '|' :: (request.1 ++ '|' ::
    (request.2.write ++ retrySalt retryOf)))

def deriveKey (sha256 : List Char → List UInt8) (telegramUserId : ℤ)
    (submission : CaptureSubmission) (retryOf : Option (BitVec 128)) : List Char :=
  digestText sha256 (keyPreimage telegramUserId submission retryOf)

def captureSubmission (sha256 : List Char → List UInt8) (telegramUserId : ℤ)
    (source : CaptureSource) (origin : Option JsonValue) : CaptureSubmission :=
  let unkeyed : CaptureSubmission := ⟨[],source,origin⟩
  {unkeyed with idempotencyKey := deriveKey sha256 telegramUserId unkeyed none}

theorem digestBytes_inj {xs ys : List UInt8}
    (h : (xs.flatMap fun byte => hexDigits 2 byte.toNat) =
      ys.flatMap fun byte => hexDigits 2 byte.toNat) : xs = ys := by
  have hlength : ∀ zs : List UInt8,
      (zs.flatMap fun byte => hexDigits 2 byte.toNat).length = 2 * zs.length := by
    intro zs
    induction zs with
    | nil => rfl
    | cons z zs ih =>
      rw [List.flatMap_cons,List.length_append,ih,length_hexDigits,List.length_cons]
      omega
  induction xs generalizing ys with
  | nil =>
    have hnone := hlength ys
    rw [← h] at hnone
    have hzero : ys.length = 0 := by
      simp only [List.flatMap_nil,List.length_nil] at hnone
      omega
    exact (List.length_eq_zero_iff.mp hzero).symm
  | cons x xs ih =>
    cases ys with
    | nil =>
      have hsome := hlength (x :: xs)
      rw [h] at hsome
      simp at hsome
    | cons y ys =>
      simp only [List.flatMap_cons] at h
      have hsplit := List.append_inj h (by simp)
      have hbyte : x = y := UInt8.toNat_inj.mp (hexDigits_inj x.toNat_lt y.toNat_lt hsplit.1)
      rw [hbyte,ih hsplit.2]

theorem brace_not_mem_hexDigits (width n : ℕ) : '\x7d' ∉ hexDigits width n := by
  induction width generalizing n with
  | zero => exact List.not_mem_nil
  | succ width ih =>
    intro h
    rcases List.mem_append.mp h with hfirst | hlast
    · exact ih _ hfirst
    · exact Nat.digitChar_ne '\x7d' (by decide) (List.mem_singleton.mp hlast).symm

theorem brace_not_mem_uuidText (id : BitVec 128) : '\x7d' ∉ uuidText id := by
  have hhyphen : '\x7d' ≠ '-' := by decide
  simp only [uuidText,List.mem_append,List.mem_cons,brace_not_mem_hexDigits,hhyphen,or_self,
    not_false_eq_true]

theorem retrySalt_some (failed : BitVec 128) :
    retrySalt (some failed) = ['|','r','e','t','r','y',':'] ++ uuidText failed := rfl

theorem retrySalt_inj {r r' : Option (BitVec 128)} (h : retrySalt r = retrySalt r') : r = r' := by
  cases r with
  | none =>
    cases r' with
    | none => rfl
    | some failed => exact absurd h (List.cons_ne_nil _ _).symm
  | some failed =>
    cases r' with
    | none => exact absurd h (List.cons_ne_nil _ _)
    | some failed' =>
      rw [retrySalt_some,retrySalt_some] at h
      rw [uuidText_inj (List.append_cancel_left h)]

theorem brace_not_mem_retrySalt (r : Option (BitVec 128)) : '\x7d' ∉ retrySalt r := by
  cases r with
  | none => exact List.not_mem_nil
  | some failed =>
    rw [retrySalt_some]
    intro h
    rcases List.mem_append.mp h with hword | hid
    · exact absurd hword (by decide)
    · exact brace_not_mem_uuidText failed hid

theorem bar_not_mem_path (s : CaptureSubmission) : '|' ∉ s.requestParts.1 := by
  rcases requestParts_path s with h | h
  · rw [h]
    decide
  · rw [h]
    decide

/-- The parts of a key come apart: the sender and the path end at the first separators, and the
salt follows the last brace. -/
theorem keyPreimage_inj {u u' : ℤ} {s s' : CaptureSubmission} {r r' : Option (BitVec 128)}
    (h : keyPreimage u s r = keyPreimage u' s' r') :
    u = u' ∧ s.requestParts.1 = s'.requestParts.1 ∧
      s.requestParts.2.write = s'.requestParts.2.write ∧ r = r' := by
  have hinit : intText u ++ '|' :: (s.requestParts.1 ++ '|' :: (s.requestParts.2.write ++
      retrySalt r)) = intText u' ++ '|' :: (s'.requestParts.1 ++ '|' ::
      (s'.requestParts.2.write ++ retrySalt r')) := List.append_cancel_left h
  have hsender := append_cons_inj_first (bar_not_mem_intText u) (bar_not_mem_intText u') hinit
  have hpath := append_cons_inj_first (bar_not_mem_path s) (bar_not_mem_path s') hsender.2
  obtain ⟨inner,hinner⟩ := requestParts_write s
  obtain ⟨inner',hinner'⟩ := requestParts_write s'
  have htail := hpath.2
  rw [hinner,hinner',List.append_assoc,List.append_assoc] at htail
  have hbody := append_cons_inj_last (brace_not_mem_retrySalt r) (brace_not_mem_retrySalt r') htail
  refine ⟨intText_inj hsender.1,hpath.1,?_,retrySalt_inj hbody.2⟩
  rw [hinner,hinner',hbody.1]

theorem deriveKey_congr (sha256 : List Char → List UInt8) (u : ℤ) {s s' : CaptureSubmission}
    (r : Option (BitVec 128)) (h : s.requestParts = s'.requestParts) :
    deriveKey sha256 u s r = deriveKey sha256 u s' r := by
  have hpreimage : keyPreimage u s r = keyPreimage u s' r := by
    unfold keyPreimage
    rw [h]
  exact congrArg (digestText sha256) hpreimage

theorem captureSubmission_keyed (sha256 : List Char → List UInt8) (telegramUserId : ℤ)
    (source : CaptureSource) (origin : Option JsonValue) :
    (captureSubmission sha256 telegramUserId source origin).idempotencyKey =
      deriveKey sha256 telegramUserId (captureSubmission sha256 telegramUserId source origin)
        none := by
  refine deriveKey_congr sha256 telegramUserId none ?_
  cases source <;> rfl

/-- Keys are equal exactly where sender, source, origin and retry are; whatever key is stored with
the submission, and for equal keys one request goes out. -/
theorem deriveKey_eq_iff (sha256 : List Char → List UInt8) (u u' : ℤ) (s s' : CaptureSubmission)
    (r r' : Option (BitVec 128))
    (hsha : sha256 (keyPreimage u s r) = sha256 (keyPreimage u' s' r') →
      keyPreimage u s r = keyPreimage u' s' r')
    (hjson : s.requestParts.2.write = s'.requestParts.2.write →
      s.requestParts.2 = s'.requestParts.2) :
    (deriveKey sha256 u s r = deriveKey sha256 u' s' r' ↔
      u = u' ∧ s.source = s'.source ∧ s.origin = s'.origin ∧ r = r') ∧
    (∀ key, deriveKey sha256 u {s with idempotencyKey := key} r = deriveKey sha256 u s r) ∧
    (deriveKey sha256 u s r = deriveKey sha256 u' s' r' → s.requestParts = s'.requestParts) := by
  have hparts : deriveKey sha256 u s r = deriveKey sha256 u' s' r' →
      u = u' ∧ s.requestParts = s'.requestParts ∧ r = r' := by
    intro h
    have hsplit := keyPreimage_inj (hsha (digestBytes_inj h))
    exact ⟨hsplit.1,Prod.ext hsplit.2.1 (hjson hsplit.2.2.1),hsplit.2.2.2⟩
  refine ⟨⟨fun h => ?_,?_⟩,fun key => deriveKey_congr sha256 u r ?_,fun h => (hparts h).2.1⟩
  · have hsame := hparts h
    have hinj := requestParts_inj hsame.2.1
    exact ⟨hsame.1,hinj.1,hinj.2,hsame.2.2⟩
  · rintro ⟨rfl,hsource,horigin,rfl⟩
    have hsame : s.requestParts = s'.requestParts := by
      unfold CaptureSubmission.requestParts
      rw [hsource,horigin]
    exact deriveKey_congr sha256 u r hsame
  · cases s
    rfl

def sampleSha256 (input : List Char) : List UInt8 :=
  let single := "capture.v2|9|".toList ++ "/v1/captures|".toList ++
    "\x7b\"url\":\"https:".toList ++ "//a.test/\"\x7d".toList
  if input = single then
    [80,3,75,184,3,215,193,135,104,147,151,217,202,188,127,182,
    93,20,106,35,16,32,133,175,74,160,77,54,1,42,228,55]
  else if input = single ++ "|retry:".toList ++ "00000000-0000-".toList ++ "0000-0000-".toList ++
      "000000000001".toList then
    [180,42,98,215,211,5,32,96,202,145,44,55,227,185,237,43,
    228,133,60,219,125,177,182,247,24,191,132,21,171,56,4,109]
  else []

/-- A retry has a key of its own. -/
theorem deriveKey_retry_ne :
    deriveKey sampleSha256 9 ⟨[],.url "https://a.test/".toList,none⟩ none ≠
      deriveKey sampleSha256 9 ⟨[],.url "https://a.test/".toList,none⟩ (some 1) := by
  intro h
  have hsame := (deriveKey_eq_iff sampleSha256 9 9 ⟨[],.url "https://a.test/".toList,none⟩
    ⟨[],.url "https://a.test/".toList,none⟩ none (some 1)
    (fun hsha => absurd hsha (by decide +kernel)) (fun _ => rfl)).1.mp h
  exact absurd hsame.2.2.2 (by decide)

end RatatoskrTelegram
