/-
Encrypted media messages (`shared/encryption.py`, the encryption schemes;
`shared/av/namespaces.py`, `on_message`).

A message is the 4-byte index of the sender's pair followed by what the scheme made of the
data.  AES-GCM is an interface: an ideal authenticated cipher, which opens exactly what it
has sealed.

* `xorBytes_tile_cancel` — XOR with the tiled key undoes itself, whatever the two lengths;
* `decrypt_encrypt` — every scheme opens what it encrypted;
* `decrypt_aes_eq_ok` — under AES nothing else is opened, however short the bytes are;
* `media_wire_format` — the same for whole messages, as a receiver sees them.
-/
import QuantumVideoChat.PeerKeys

open Encryption

/-- `AES.new(key, AES.MODE_GCM, nonce=nonce)` and its two operations, for keys and nonces that
it takes, as an ideal authenticated cipher with tags of 16 bytes. -/
structure AESGCM where
  /-- `encrypt_and_digest(data)`: the ciphertext and the tag -/
  encryptAndDigest : (key nonce data : Bytes) → Bytes × Bytes
  /-- `decrypt_and_verify(ciphertext, tag)`, `none` when the check of the tag fails -/
  decryptAndVerify : (key nonce ciphertext tag : Bytes) → Option Bytes
  length_tag : ∀ key nonce data, (encryptAndDigest key nonce data).2.length = 16
  decryptAndVerify_eq_some : ∀ key nonce ciphertext tag data,
    decryptAndVerify key nonce ciphertext tag = some data ↔
      encryptAndDigest key nonce data = (ciphertext, tag)

inductive EncryptionScheme
  | xor
  | debug
  | aes
  deriving DecidableEq

namespace EncryptionScheme

inductive CipherError
  | zeroDivision
  | valueError (message : String)
  deriving DecidableEq

/-- `bytes(a ^ b for a, b in zip(..))`. -/
def xorBytes (data key : Bytes) : Bytes := List.zipWith (· ^^^ ·) data key

/-- `key * (len(data) // len(key) + 1)`. -/
def tile (key : Bytes) (length : ℕ) : Bytes :=
  (List.replicate (length / key.length + 1) key).flatten

def nonceSize : ℕ := 12

def tagSize : ℕ := 16

/-- The checks of `AES.new`. -/
def aesNew (key nonce : Bytes) : Except CipherError Unit :=
  if ¬ AV.AcceptedByAES key then
    .error (.valueError ("Incorrect AES key length (" ++ toString key.length ++ " bytes)"))
  else if nonce = [] then .error (.valueError "Nonce cannot be empty")
  else .ok ()

variable (A : AESGCM)

def encrypt (urandom : Urandom) (data key : Bytes) : EncryptionScheme → Except CipherError Bytes
  | xor =>
    if key.length = 0 then .error .zeroDivision else .ok (xorBytes data (tile key data.length))
  | debug => .ok data
  | aes =>
    let nonce := (urandom nonceSize).toList
    match aesNew key nonce with
    | .error e => .error e
    | .ok () =>
      let (ciphertext, tag) := A.encryptAndDigest key nonce data
      .ok (nonce ++ tag ++ ciphertext)

def decrypt (data key : Bytes) : EncryptionScheme → Except CipherError Bytes
  | xor =>
    if key.length = 0 then .error .zeroDivision else .ok (xorBytes data (tile key data.length))
  | debug => .ok data
  | aes =>
    -- slices of a short message are short or empty
    let nonce := data.take nonceSize
    let tag := (data.drop nonceSize).take tagSize
    let ciphertext := data.drop (nonceSize + tagSize)
    match aesNew key nonce with
    | .error e => .error e
    | .ok () =>
      match A.decryptAndVerify key nonce ciphertext tag with
      | some data => .ok data
      | none => .error (.valueError "MAC check failed")

/-- The keys with which the scheme encrypts. -/
def Accepts (key : Bytes) : EncryptionScheme → Prop
  | xor => key ≠ []
  | debug => True
  | aes => AV.AcceptedByAES key

variable {A}

/-! ### XOR -/

theorem length_tile (key : Bytes) (length : ℕ) :
    (tile key length).length = (length / key.length + 1) * key.length := by
  rw [tile, List.length_flatten, List.map_replicate, List.sum_replicate, smul_eq_mul]

theorem length_lt_length_tile {key : Bytes} (hkey : key ≠ []) (length : ℕ) :
    length < (tile key length).length := by
  have hpos : 0 < key.length := List.length_pos_of_ne_nil hkey
  rw [length_tile, Nat.add_mul, Nat.one_mul]
  exact Nat.lt_div_mul_add hpos

theorem length_xorBytes_tile {key : Bytes} (hkey : key ≠ []) (data : Bytes) :
    (xorBytes data (tile key data.length)).length = data.length := by
  rw [xorBytes, List.length_zipWith]
  exact min_eq_left (length_lt_length_tile hkey data.length).le

theorem xorBytes_cancel {data key : Bytes} (h : data.length ≤ key.length) :
    xorBytes (xorBytes data key) key = data := by
  induction data generalizing key with
  | nil => rfl
  | cons a data ih =>
    cases key with
    | nil => exact absurd h (by simp)
    | cons b key =>
      have hbyte : (a ^^^ b) ^^^ b = a := by
        rw [UInt8.xor_assoc, UInt8.xor_self, UInt8.xor_zero]
      have hrest := ih (Nat.le_of_succ_le_succ h)
      simp only [xorBytes, List.zipWith_cons_cons, hbyte] at hrest ⊢
      rw [hrest]

/-- Both directions tile the key to the same length, because the data keeps its own. -/
theorem xorBytes_tile_cancel {key : Bytes} (hkey : key ≠ []) (data : Bytes) :
    xorBytes (xorBytes data (tile key data.length))
      (tile key (xorBytes data (tile key data.length)).length) = data := by
  rw [length_xorBytes_tile hkey]
  exact xorBytes_cancel (length_lt_length_tile hkey data.length).le

/-! ### AES -/

theorem length_nonce (urandom : Urandom) : (urandom nonceSize).toList.length = nonceSize :=
  List.Vector.length_val _

theorem aesNew_eq_ok {key nonce : Bytes} :
    aesNew key nonce = .ok () ↔ AV.AcceptedByAES key ∧ nonce ≠ [] := by
  rw [aesNew]
  by_cases hkey : AV.AcceptedByAES key
  · by_cases hnonce : nonce = []
    · simp [hkey, hnonce]
    · simp [hkey, hnonce]
  · simp [hkey]

/-- The slices of nonce, tag and ciphertext. -/
theorem slices_append {nonce tag : Bytes} (hnonce : nonce.length = nonceSize)
    (htag : tag.length = tagSize) (ciphertext : Bytes) :
    (nonce ++ tag ++ ciphertext).take nonceSize = nonce ∧
      ((nonce ++ tag ++ ciphertext).drop nonceSize).take tagSize = tag ∧
      (nonce ++ tag ++ ciphertext).drop (nonceSize + tagSize) = ciphertext := by
  have hboth : (nonce ++ tag).length = nonceSize + tagSize := by
    rw [List.length_append, hnonce, htag]
  refine ⟨?_, ?_, ?_⟩
  · rw [List.append_assoc, ← hnonce, List.take_left]
  · rw [List.append_assoc, ← hnonce, List.drop_left, ← htag, List.take_left]
  · rw [← hboth, List.drop_left]

/-- What `decrypt` opens under AES: a nonce, a tag and a ciphertext that the cipher has made of
the data under this key. -/
theorem decrypt_aes_eq_ok {data key plain : Bytes} :
    aes.decrypt A data key = .ok plain ↔
      AV.AcceptedByAES key ∧ ∃ nonce, nonce.length = nonceSize ∧
        data = nonce ++ (A.encryptAndDigest key nonce plain).2
          ++ (A.encryptAndDigest key nonce plain).1 := by
  constructor
  · intro h
    rw [decrypt] at h
    cases hnew : aesNew key (data.take nonceSize) with
    | error e => simp [hnew] at h
    | ok u =>
      cases hopen : A.decryptAndVerify key (data.take nonceSize)
          (data.drop (nonceSize + tagSize)) ((data.drop nonceSize).take tagSize) with
      | none => simp [hnew, hopen] at h
      | some opened =>
        simp only [hnew, hopen, Except.ok.injEq] at h
        rw [h, A.decryptAndVerify_eq_some] at hopen
        -- a tag of full length leaves no room for a short message
        have htag := A.length_tag key (data.take nonceSize) plain
        rw [hopen, List.length_take, List.length_drop] at htag
        have hlong : nonceSize + tagSize ≤ data.length := by
          rw [nonceSize, tagSize] at *
          omega
        refine ⟨(aesNew_eq_ok.mp hnew).1, data.take nonceSize, ?_, ?_⟩
        · rw [List.length_take]
          omega
        · rw [hopen, List.append_assoc, ← List.drop_drop, List.take_append_drop,
            List.take_append_drop]
  · rintro ⟨hkey, nonce, hnonce, rfl⟩
    obtain ⟨htake, htag, hrest⟩ := slices_append hnonce (A.length_tag key nonce plain)
      (A.encryptAndDigest key nonce plain).1
    have hne : nonce ≠ [] := by
      intro hnil
      simp [hnil, nonceSize] at hnonce
    have hopen := (A.decryptAndVerify_eq_some key nonce (A.encryptAndDigest key nonce plain).1
      (A.encryptAndDigest key nonce plain).2 plain).mpr rfl
    simp only [decrypt, htake, htag, hrest, aesNew_eq_ok.mpr ⟨hkey, hne⟩, hopen]

/-- `os.urandom` answers a request for as many bytes with these. -/
def urandomOf (nonce : Bytes) : Urandom := fun n =>
  ⟨(nonce ++ List.replicate n 0).take n, by simp⟩

theorem urandomOf_toList {nonce : Bytes} (h : nonce.length = nonceSize) :
    (urandomOf nonce nonceSize).toList = nonce := by
  show (nonce ++ List.replicate nonceSize 0).take nonceSize = nonce
  rw [← h, List.take_left]

theorem encrypt_aes_eq_ok {urandom : Urandom} {data key sealed : Bytes} :
    aes.encrypt A urandom data key = .ok sealed ↔
      AV.AcceptedByAES key ∧ sealed = (urandom nonceSize).toList
        ++ (A.encryptAndDigest key (urandom nonceSize).toList data).2
        ++ (A.encryptAndDigest key (urandom nonceSize).toList data).1 := by
  have hne : (urandom nonceSize).toList ≠ [] := by
    intro hnil
    have hlen := length_nonce urandom
    rw [hnil] at hlen
    exact absurd hlen (by decide)
  rw [encrypt]
  cases hnew : aesNew key (urandom nonceSize).toList with
  | ok u =>
    have hkey := (aesNew_eq_ok.mp hnew).1
    simp only [hkey, true_and, Except.ok.injEq, eq_comm]
  | error e =>
    have hkey : ¬ AV.AcceptedByAES key := by
      intro hkey
      rw [aesNew_eq_ok.mpr ⟨hkey, hne⟩] at hnew
      exact absurd hnew (by simp)
    simp [hkey]

/-! ### Every scheme -/

theorem encrypt_of_accepts (A : AESGCM) {scheme : EncryptionScheme} {key : Bytes}
    (h : scheme.Accepts key) (urandom : Urandom) (data : Bytes) :
    ∃ sealed, scheme.encrypt A urandom data key = .ok sealed := by
  cases scheme with
  | xor =>
    have hpos : key.length ≠ 0 := fun h0 => h (List.length_eq_zero_iff.mp h0)
    exact ⟨_, if_neg hpos⟩
  | debug => exact ⟨data, rfl⟩
  | aes => exact ⟨_, encrypt_aes_eq_ok.mpr ⟨h, rfl⟩⟩

theorem decrypt_encrypt {scheme : EncryptionScheme} {urandom : Urandom} {data key sealed : Bytes}
    (h : scheme.encrypt A urandom data key = .ok sealed) :
    scheme.decrypt A sealed key = .ok data := by
  cases scheme with
  | xor =>
    rw [encrypt] at h
    split_ifs at h with hempty
    have hkey : key ≠ [] := fun hnil => hempty (by rw [hnil]; rfl)
    obtain rfl := Except.ok.inj h
    rw [decrypt, if_neg hempty, xorBytes_tile_cancel hkey]
  | debug =>
    obtain rfl := Except.ok.inj h
    rfl
  | aes =>
    obtain ⟨hkey, rfl⟩ := encrypt_aes_eq_ok.mp h
    exact decrypt_aes_eq_ok.mpr ⟨hkey, _, length_nonce urandom, rfl⟩

/-- Under AES whatever is opened has been encrypted. -/
theorem encrypt_of_decrypt {data key plain : Bytes} (h : aes.decrypt A data key = .ok plain) :
    ∃ urandom, aes.encrypt A urandom plain key = .ok data := by
  obtain ⟨hkey, nonce, hnonce, rfl⟩ := decrypt_aes_eq_ok.mp h
  refine ⟨urandomOf nonce, encrypt_aes_eq_ok.mpr ⟨hkey, ?_⟩⟩
  rw [urandomOf_toList hnonce]

end EncryptionScheme

/-! ### Messages -/

namespace MediaFrame

/-- The four bytes of a header are those of its index. -/
theorem indexToBytes_indexFromBytes {header : Bytes} (h : header.length = 4) :
    indexToBytes (indexFromBytes header) = some header := by
  match header, h with
  | [a, b, c, d], _ =>
    have ha := a.toNat_lt
    have hb := b.toNat_lt
    have hc := c.toNat_lt
    have hd := d.toNat_lt
    have hvalue : indexFromBytes [a, b, c, d]
        = ((a.toNat * 256 + b.toNat) * 256 + c.toNat) * 256 + d.toNat := by
      simp [indexFromBytes]
    rw [hvalue, indexToBytes, if_pos (by omega)]
    simp only [Option.some_inj, List.cons.injEq, and_true, ← UInt8.toNat_inj,
      UInt8.toNat_ofNat']
    omega

end MediaFrame

namespace AV

open MediaFrame EncryptionScheme

/-- The data that `on_message` hands on, to the sound card or to the video pipe. -/
def handsOn (A : AESGCM) (scheme : EncryptionScheme) (av : AV) (ownMessage : Bool)
    (msg : Bytes) : Option Bytes :=
  (av.onMessage (fun data key => scheme.decrypt A data key) ownMessage msg).bind
    fun opened => opened.toOption

theorem handsOn_eq_some {A : AESGCM} {scheme : EncryptionScheme} {av : AV} {ownMessage : Bool}
    {msg data : Bytes} :
    av.handsOn A scheme ownMessage msg = some data ↔
      ownMessage = false ∧ indexFromBytes (msg.take 4) = av.key.1 ∧
        scheme.decrypt A (msg.drop 4) av.key.2 = .ok data := by
  rw [handsOn, onMessage]
  cases ownMessage with
  | true => simp
  | false =>
    by_cases hidx : indexFromBytes (msg.take 4) = av.key.1
    · cases hopen : scheme.decrypt A (msg.drop 4) av.key.2 with
      | error e => simp [hidx, Except.toOption]
      | ok opened => simp [hidx, Except.toOption]
    · simp [hidx]

/-- **The wire format of the media messages.**  The data of a message under the receiver's pair
is handed on as it was; a message under another index is ignored; and under AES nothing is
handed on but what was encrypted under the current pair. -/
theorem media_wire_format (A : AESGCM) (scheme : EncryptionScheme) (av : AV) :
    (∀ urandom payload, scheme.Accepts av.key.2 →
      ∃ sealed, scheme.encrypt A urandom payload av.key.2 = .ok sealed) ∧
    (∀ urandom payload header sealed, indexToBytes av.key.1 = some header →
      scheme.encrypt A urandom payload av.key.2 = .ok sealed →
        av.handsOn A scheme false (header ++ sealed) = some payload) ∧
    (∀ index header data, indexToBytes index = some header → index ≠ av.key.1 →
      av.onMessage (fun data key => scheme.decrypt A data key) false (header ++ data) = none) ∧
    ∀ ownMessage msg data, av.handsOn A .aes ownMessage msg = some data →
      ∃ header urandom sealed, indexToBytes av.key.1 = some header ∧
        aes.encrypt A urandom data av.key.2 = .ok sealed ∧ msg = header ++ sealed := by
  refine ⟨fun urandom payload haccepts => encrypt_of_accepts A haccepts urandom payload,
    fun urandom payload header sealed hheader hsealed => ?_,
    fun index header data hheader hne => ?_, fun ownMessage msg data h => ?_⟩
  · have hlen := length_of_indexToBytes hheader
    refine handsOn_eq_some.mpr ⟨rfl, ?_, ?_⟩
    · rw [← hlen, List.take_left]
      exact indexFromBytes_of_indexToBytes hheader
    · rw [← hlen, List.drop_left]
      exact decrypt_encrypt hsealed
  · have hlen := length_of_indexToBytes hheader
    rw [onMessage, ← hlen, List.take_left, indexFromBytes_of_indexToBytes hheader]
    simp [hne]
  · obtain ⟨-, hidx, hopen⟩ := handsOn_eq_some.mp h
    obtain ⟨urandom, hsealed⟩ := encrypt_of_decrypt hopen
    -- something follows the header, so the header is complete
    have hlong : 4 ≤ msg.length := by
      obtain ⟨-, nonce, hnonce, heq⟩ := decrypt_aes_eq_ok.mp hopen
      have hdrop := congrArg List.length heq
      rw [List.length_drop, List.length_append, List.length_append, hnonce, nonceSize] at hdrop
      omega
    have hheader : (msg.take 4).length = 4 := by
      rw [List.length_take, min_eq_left hlong]
    exact ⟨msg.take 4, urandom, msg.drop 4, hidx ▸ indexToBytes_indexFromBytes hheader, hsealed,
      (List.take_append_drop 4 msg).symm⟩

/-- What AES-GCM makes of sixteen zero bytes under the zero key and the zero nonce. -/
def zeroBlockCiphertext : Bytes :=
  [0x03, 0x88, 0xda, 0xce, 0x60, 0xb6, 0xa3, 0x92, 0xf3, 0x28, 0xc2, 0xb9, 0x71, 0xb2, 0xfe, 0x78]

def zeroBlockTag : Bytes :=
  [0xab, 0x6e, 0x47, 0xd4, 0x2c, 0xec, 0x13, 0xbd, 0xf5, 0x3a, 0x67, 0xb2, 0x12, 0x57, 0xbd, 0xdf]

/-- An ideal cipher that is AES-GCM on the zero block, key and nonce. -/
def zeroBlockGCM : AESGCM where
  encryptAndDigest _ _ data :=
    (xorBytes data (zeroBlockCiphertext ++ List.replicate data.length 0), zeroBlockTag)
  decryptAndVerify _ _ ciphertext tag :=
    if tag = zeroBlockTag then
      some (xorBytes ciphertext (zeroBlockCiphertext ++ List.replicate ciphertext.length 0))
    else none
  length_tag _ _ _ := rfl
  decryptAndVerify_eq_some key nonce ciphertext tag data := by
    have hlength : ∀ bytes : Bytes,
        (xorBytes bytes (zeroBlockCiphertext ++ List.replicate bytes.length 0)).length
          = bytes.length := fun bytes => by
      simp [xorBytes]
    have hcancel : ∀ bytes : Bytes,
        xorBytes (xorBytes bytes (zeroBlockCiphertext ++ List.replicate bytes.length 0))
          (zeroBlockCiphertext ++ List.replicate bytes.length 0) = bytes := fun bytes =>
      xorBytes_cancel (by simp)
    by_cases htag : tag = zeroBlockTag
    · subst htag
      rw [if_pos rfl]
      simp only [Option.some.injEq, Prod.mk.injEq, and_true]
      constructor
      · rintro rfl
        rw [hlength, hcancel]
      · rintro rfl
        rw [hlength, hcancel]
    · simp only [if_neg htag, reduceCtorEq, Prod.mk.injEq, false_iff, not_and]
      exact fun _ h => htag h.symm

/-- What `AV` holds after its constructor when it is configured with RANDOM. -/
def randomAV : AV where
  keyGen := .random { key := List.replicate 16 0, keyLength := 128 }
  key := (0, List.replicate 16 0)
  history := [(0, List.replicate 16 0)]

/-- Sixteen zero bytes sent with key index 0, as the receiver finds them. -/
theorem media_wire_format_zero_block :
    randomAV.handsOn zeroBlockGCM .aes false
        ([0, 0, 0, 0] ++ (List.replicate 12 0 ++ zeroBlockTag ++ zeroBlockCiphertext))
      = some (List.replicate 16 0) :=
  (media_wire_format zeroBlockGCM .aes randomAV).2.1 (fun n => List.Vector.replicate n 0)
    (List.replicate 16 0) [0, 0, 0, 0] _ (by decide) (by decide +kernel)

end AV
