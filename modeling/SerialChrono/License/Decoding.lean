import SerialChrono.Library.CText

/-!
# Decoding and decrypting the licence (`license.c`)

The licence file is read through a base64 filter in pieces (`base64DecodeFile`), the unique id
that unlocks it likewise (`base64DecodeString`), and `decryptLicense` takes a hash and an
initial vector off the front, decrypts the rest, and decrypts the result again in chunks of the
size of the RSA key.

Lengths are unsigned throughout.  The read loops store what `BIO_read` returns in a `size_t`
before they ask whether it is positive, so an error is a huge count and not an end
(`decodeLoops_stop_iff`).  `decryptLicense` asks neither whether there is a hash and a vector
to take off nor whether there is a chunk, and writes a terminator behind the chunks all the
same (`decryptLicense_staysInside_iff`).
-/

namespace SerialChrono

open CText

/-! ## The read loops -/

/-- What a read loop leaves: the calls of `BIO_read` it has made, and `*datalen`. -/
structure Decoded where
  calls : ℕ
  datalen : ℕ
  deriving DecidableEq, Repr

/-- `while ((len=BIO_read(b64, buffer+index, 1024))>0) index+=len;` with `len` and `index` of
type `size_t`, at most `fuel` times round, from a given call on. -/
def decodeLoop (bioRead : ℕ → ℤ) : (fuel call index : ℕ) → Option Decoded
  | 0, _, _ => none
  | fuel + 1, call, index =>
    let len := toUInt64 (bioRead call)
    if 0 < len then decodeLoop bioRead fuel (call + 1) ((index + len) % 2 ^ 64)
    else some { calls := call + 1, datalen := index }

/-- `base64DecodeString`, by what `BIO_read` returns at each call. -/
def base64DecodeString (bioRead : ℕ → ℤ) (fuel : ℕ) : Option (Option Decoded) :=
  (decodeLoop bioRead fuel 0 0).map some

/-- What is at a path: `stat`, telling whether it is a regular file, and `fopen`. -/
structure FileAccess where
  isReg : Option Bool
  opens : Bool

/-- `base64DecodeFile`: NULL if there is no such file. -/
def base64DecodeFile (fname : Option CString) (file : FileAccess) (bioRead : ℕ → ℤ)
    (fuel : ℕ) : Option (Option Decoded) :=
  if fname = none ∨ fname = some [] then some none
  else
    match file.isReg with
    | none | some false => some none
    | some true =>
      if file.opens then (decodeLoop bioRead fuel 0 0).map some else some none

/-- A path with a file that can be read. -/
structure Readable (fname : Option CString) (file : FileAccess) : Prop where
  named : fname ≠ none ∧ fname ≠ some []
  isReg : file.isReg = some true
  opens : file.opens = true

/-- What `BIO_read` returns, call by call: positive counts, and from then on the end or an
error. -/
structure BioRead where
  counts : List ℕ
  positive : ∀ count ∈ counts, 0 < count ∧ count ≤ 1024
  final : ℤ
  nonpositive : final = 0 ∨ final = -1

namespace BioRead

def result (b : BioRead) (call : ℕ) : ℤ :=
  match b.counts[call]? with
  | some count => count
  | none => b.final

/-- The sum of the positive counts. -/
def decoded (b : BioRead) : ℕ := b.counts.foldr (· + ·) 0

/-- The loop ends at the first result that is not positive, with the sum of the counts before. -/
def StopsAtEnd (b : BioRead) (decode : (ℕ → ℤ) → ℕ → Option (Option Decoded)) : Prop :=
  ∃ fuel, decode b.result fuel = some (some ⟨b.counts.length + 1, b.decoded⟩)

end BioRead

/-! ## When they stop -/

/-- The loop gives the same result with more fuel. -/
lemma decodeLoop_add {bioRead : ℕ → ℤ} {fuel call index : ℕ} {d : Decoded}
    (h : decodeLoop bioRead fuel call index = some d) (more : ℕ) :
    decodeLoop bioRead (fuel + more) call index = some d := by
  induction fuel generalizing call index with
  | zero => cases h
  | succ fuel ih =>
    rw [Nat.succ_add]
    unfold decodeLoop at h ⊢
    dsimp only at h ⊢
    split_ifs at h ⊢
    · exact ih h
    · exact h

lemma decodeLoop_unique {bioRead : ℕ → ℤ} {fuel fuel' call index : ℕ} {d d' : Decoded}
    (h : decodeLoop bioRead fuel call index = some d)
    (h' : decodeLoop bioRead fuel' call index = some d') : d = d' := by
  have hd := decodeLoop_add h fuel'
  rw [Nat.add_comm, decodeLoop_add h' fuel] at hd
  exact (Option.some.inj hd).symm

/-- It goes on for ever when no result is zero. -/
lemma decodeLoop_eq_none {bioRead : ℕ → ℤ} (h : ∀ call, 0 < toUInt64 (bioRead call))
    (fuel call index : ℕ) : decodeLoop bioRead fuel call index = none := by
  induction fuel generalizing call index with
  | zero => rfl
  | succ fuel ih => rw [decodeLoop, if_pos (h call), ih]

/-- Positive counts are added up. -/
lemma decodeLoop_counts {bioRead : ℕ → ℤ} {counts : List ℕ} {call : ℕ}
    (hcounts : ∀ i (h : i < counts.length), bioRead (call + i) = (counts[i] : ℤ))
    (hpositive : ∀ count ∈ counts, 0 < count ∧ count ≤ 1024) (fuel : ℕ) {index : ℕ}
    (hindex : index < 2 ^ 64) :
    decodeLoop bioRead (counts.length + fuel) call index =
      decodeLoop bioRead fuel (call + counts.length)
        ((index + counts.foldr (· + ·) 0) % 2 ^ 64) := by
  induction counts generalizing call index with
  | nil =>
    rw [List.length_nil, Nat.zero_add, List.foldr_nil, Nat.add_zero, Nat.add_zero,
      Nat.mod_eq_of_lt hindex]
  | cons count counts ih =>
    obtain ⟨hpos, hle⟩ := hpositive count List.mem_cons_self
    have hfirst : toUInt64 (bioRead call) = count := by
      have h := hcounts 0 (Nat.zero_lt_succ _)
      rw [Nat.add_zero, List.getElem_cons_zero] at h
      rw [h]
      unfold toUInt64
      omega
    have hrest : ∀ i (h : i < counts.length), bioRead (call + 1 + i) = (counts[i] : ℤ) := by
      intro i hi
      have h := hcounts (i + 1) (Nat.succ_lt_succ hi)
      rwa [List.getElem_cons_succ, ← Nat.add_assoc, Nat.add_right_comm] at h
    rw [List.length_cons, Nat.add_right_comm, decodeLoop, hfirst,
      if_pos hpos, ih hrest (fun c hc => hpositive c (List.mem_cons_of_mem count hc))
      (Nat.mod_lt _ (by decide))]
    rw [List.foldr_cons, Nat.mod_add_mod, Nat.add_assoc, Nat.add_comm counts.length 1,
      Nat.add_assoc]

namespace BioRead

variable (b : BioRead)

lemma result_counts (i : ℕ) (h : i < b.counts.length) :
    b.result (0 + i) = (b.counts[i] : ℤ) := by
  rw [Nat.zero_add, result, List.getElem?_eq_getElem h]

lemma result_final : b.result b.counts.length = b.final := by
  rw [result, List.getElem?_eq_none (Nat.le_refl _)]

/-- With an error at the end no result is zero when it is read as unsigned. -/
lemma result_pos (h : b.final = -1) (call : ℕ) : 0 < toUInt64 (b.result call) := by
  unfold result
  split
  · next count hcount =>
    obtain ⟨hpos, hle⟩ := b.positive count (List.mem_of_getElem? hcount)
    unfold toUInt64
    omega
  · rw [h]
    decide

/-- When the loop stops at the end. -/
lemma decodeLoop_stops_iff :
    (∃ fuel, decodeLoop b.result fuel 0 0 = some ⟨b.counts.length + 1, b.decoded⟩) ↔
      b.final = 0 ∧ b.decoded < 2 ^ 64 := by
  have hzero : 0 < 2 ^ 64 := by decide
  have hcounts := decodeLoop_counts b.result_counts b.positive 1 hzero
  rw [Nat.zero_add, Nat.zero_add] at hcounts
  rcases b.nonpositive with hfinal | hfinal
  · have hend : decodeLoop b.result (b.counts.length + 1) 0 0 =
        some ⟨b.counts.length + 1, b.decoded % 2 ^ 64⟩ := by
      rw [hcounts, decodeLoop, b.result_final, hfinal]
      rfl
    constructor
    · rintro ⟨fuel, hstops⟩
      have hsame := congrArg Decoded.datalen (decodeLoop_unique hstops hend)
      refine ⟨hfinal, ?_⟩
      dsimp only at hsame
      omega
    · rintro ⟨-, hfits⟩
      exact ⟨_, by rw [hend, Nat.mod_eq_of_lt hfits]⟩
  · refine iff_of_false ?_ fun h => by omega
    rintro ⟨fuel, hstops⟩
    rw [decodeLoop_eq_none (b.result_pos hfinal)] at hstops
    cases hstops

end BioRead

/-- **When the read loops stop.** Both end at the first result that is not positive, with the
sum of the counts, exactly if that result is the end and not an error, and the sum is a
`size_t`. -/
theorem decodeLoops_stop_iff (fname : Option CString) (file : FileAccess)
    (hfile : Readable fname file) (b : BioRead) :
    (b.StopsAtEnd base64DecodeString ∧ b.StopsAtEnd (base64DecodeFile fname file)) ↔
      b.final = 0 ∧ b.decoded < 2 ^ 64 := by
  have hread : base64DecodeFile fname file = base64DecodeString := by
    funext bioRead fuel
    simp [base64DecodeFile, base64DecodeString, hfile.named.1, hfile.named.2, hfile.isReg,
      hfile.opens]
  have hstring : b.StopsAtEnd base64DecodeString ↔
      ∃ fuel, decodeLoop b.result fuel 0 0 = some ⟨b.counts.length + 1, b.decoded⟩ := by
    simp [BioRead.StopsAtEnd, base64DecodeString]
  rw [hread, and_self, hstring]
  exact b.decodeLoop_stops_iff

/-- A file of three pieces. -/
def threePieces : BioRead := ⟨[1024, 1024, 304], by decide, 0, Or.inl rfl⟩

/-- It is read to its end. -/
theorem decodeLoops_stop_iff_threePieces :
    threePieces.StopsAtEnd base64DecodeString ∧
      threePieces.StopsAtEnd
        (base64DecodeFile (some "registration.info".toList) ⟨some true, true⟩) :=
  (decodeLoops_stop_iff (some "registration.info".toList) ⟨some true, true⟩
    ⟨⟨by decide, by decide⟩, rfl, rfl⟩ threePieces).mpr ⟨rfl, by decide⟩

/-- A piece, and then a failing read. -/
def failingRead : BioRead := ⟨[1024], by decide, -1, Or.inr rfl⟩

/-- It is not: an error keeps the loop running. -/
theorem decodeLoops_failing_read :
    ¬ ∀ (fname : Option CString) (file : FileAccess), Readable fname file → ∀ b : BioRead,
      b.StopsAtEnd base64DecodeString ∧ b.StopsAtEnd (base64DecodeFile fname file) := by
  intro h
  obtain ⟨⟨fuel, hstops⟩, -⟩ := h (some "registration.info".toList) ⟨some true, true⟩
    ⟨⟨by decide, by decide⟩, rfl, rfl⟩ failingRead
  rw [base64DecodeString, decodeLoop_eq_none (failingRead.result_pos rfl)] at hstops
  cases hstops

/-! ## `decryptLicense` -/

/-- What `decryptLicense` uses of the cryptographic library. -/
structure Crypto where
  /-- `HMAC` with `EVP_sha256`. -/
  hmac : (key text : List Char) → List Char
  hmac_length : ∀ key text, (hmac key text).length = 32
  /-- `EVP_DecryptUpdate` and `EVP_DecryptFinal_ex` with `EVP_aes_256_cbc`. -/
  decrypt : (enc iv message : List Char) → List Char
  /-- `RSA_size` of the public key. -/
  rsaSize : ℕ
  rsaSize_pos : 0 < rsaSize
  /-- `RSA_public_decrypt` with `RSA_PKCS1_PADDING`; nothing if it fails. -/
  rsaPublicDecrypt : (chunk : List Char) → Option (List Char)
  /-- The padding takes 11 bytes at least. -/
  padding : ∀ chunk out, rsaPublicDecrypt chunk = some out → out.length + 11 ≤ rsaSize

/-- `datalen -= length` on a `size_t`. -/
structure Subtraction where
  datalen : ℕ
  length : ℕ
  deriving DecidableEq, Repr

def Subtraction.result (s : Subtraction) : ℕ := toUInt64 (s.datalen - s.length)

/-- `*(result+nbytes)='\0'`, with the size of `result`. -/
structure Terminator where
  nbytes : ℕ
  size : ℕ
  deriving DecidableEq, Repr

/-- What `decryptLicense` does to `datalen`, the terminator it writes if no chunk fails, and the
text it returns.  Neither is defined when the initial vector is read from beyond the data. -/
structure Decryption where
  hash : Subtraction
  vector : Subtraction
  result : Option (Option (Terminator × CString))

namespace Crypto

variable (c : Crypto)

/-- The loop over the chunks, which appends what each is decrypted to: NULL if one fails. -/
def decryptChunks (decOut : List Char) : (chunks n : ℕ) → (result : List Char) →
    Option (List Char)
  | 0, _, result => some result
  | chunks + 1, n, result =>
    match c.rsaPublicDecrypt ((decOut.drop (n * c.rsaSize)).take c.rsaSize) with
    | none => none
    | some out => decryptChunks decOut chunks (n + 1) (result ++ out)

/-- What the data is decrypted to before its chunks are. -/
def decOut (data : List Char) (uniqueID : CString) : List Char :=
  let enc := c.hmac uniqueID "ENCRYPTION".toList
  let auth := c.hmac uniqueID "AUTHENTICATION".toList
  let data := data.drop auth.length
  c.decrypt enc (data.take 16) (data.drop 16)

/-- `decryptLicense`. -/
def decryptLicense (data : List Char) (uniqueID : CString) : Decryption :=
  let auth := c.hmac uniqueID "AUTHENTICATION".toList
  let hash : Subtraction := ⟨data.length, auth.length⟩
  let vector : Subtraction := ⟨hash.result, 16⟩
  { hash, vector
    result :=
      if data.length < auth.length + 16 then none
      else
        let decOut := c.decOut data uniqueID
        let nchunks := decOut.length / c.rsaSize
        some ((c.decryptChunks decOut nchunks 0 []).map fun result =>
          (⟨result.length, nchunks * c.rsaSize⟩, cstr result)) }

end Crypto

/-- The hash and the vector are taken off data that is long enough for both, and the terminator
is written inside the buffer of the chunks. -/
structure Decryption.StaysInside (d : Decryption) : Prop where
  hash : d.hash.length ≤ d.hash.datalen
  vector : d.vector.length ≤ d.vector.datalen
  terminator : ∀ r ∈ d.result, ∀ t ∈ r, t.1.nbytes < t.1.size

namespace Crypto

variable (c : Crypto)

/-- The chunks are decrypted to less than their size, by 11 bytes each. -/
lemma length_decryptChunks {decOut result out : List Char} {chunks n : ℕ}
    (h : c.decryptChunks decOut chunks n result = some out) :
    out.length + 11 * chunks ≤ result.length + chunks * c.rsaSize := by
  induction chunks generalizing n result with
  | zero =>
    obtain rfl : result = out := Option.some.inj h
    omega
  | succ chunks ih =>
    unfold decryptChunks at h
    split at h
    · cases h
    · next piece hpiece =>
      have hrest := ih h
      have hpadding := c.padding _ piece hpiece
      rw [List.length_append] at hrest
      rw [Nat.add_mul, Nat.one_mul]
      omega

/-- With data for a hash and a vector the chunks are decrypted. -/
lemma decryptLicense_result {data : List Char} (hdata : 48 ≤ data.length)
    (uniqueID : CString) :
    (c.decryptLicense data uniqueID).result =
      some ((c.decryptChunks (c.decOut data uniqueID)
        ((c.decOut data uniqueID).length / c.rsaSize) 0 []).map fun result =>
          (⟨result.length, (c.decOut data uniqueID).length / c.rsaSize * c.rsaSize⟩,
            cstr result)) := by
  have hauth := c.hmac_length uniqueID "AUTHENTICATION".toList
  unfold decryptLicense
  dsimp only
  rw [if_neg (by omega)]

/-- The terminator is inside the buffer if there is a chunk. -/
lemma terminator_inside_iff (decOut : List Char) :
    (∀ out ∈ c.decryptChunks decOut (decOut.length / c.rsaSize) 0 [],
        out.length < decOut.length / c.rsaSize * c.rsaSize) ↔
      c.rsaSize ≤ decOut.length := by
  constructor
  · intro hinside
    by_contra hshort
    -- no chunk, and so nothing to fail
    rw [Nat.div_eq_of_lt (not_le.mp hshort)] at hinside
    have hzero := hinside [] rfl
    rw [List.length_nil, Nat.zero_mul] at hzero
    exact Nat.lt_irrefl 0 hzero
  · intro hchunk out hout
    have hlength := c.length_decryptChunks hout
    have hone : 1 ≤ decOut.length / c.rsaSize := (Nat.one_le_div_iff c.rsaSize_pos).mpr hchunk
    rw [List.length_nil, Nat.zero_add] at hlength
    omega

end Crypto

/-- **When a licence is decrypted within bounds.** Exactly if the data is as long as a hash and a
vector together, and what follows them is decrypted to one chunk at least. -/
theorem decryptLicense_staysInside_iff (c : Crypto) (data : List Char) (uniqueID : CString)
    (hsize : data.length < 2 ^ 64) :
    (c.decryptLicense data uniqueID).StaysInside ↔
      48 ≤ data.length ∧ c.rsaSize ≤ (c.decOut data uniqueID).length := by
  have hauth := c.hmac_length uniqueID "AUTHENTICATION".toList
  have hlong : (c.decryptLicense data uniqueID).hash.length ≤
        (c.decryptLicense data uniqueID).hash.datalen ∧
      (c.decryptLicense data uniqueID).vector.length ≤
        (c.decryptLicense data uniqueID).vector.datalen ↔ 48 ≤ data.length := by
    simp only [Crypto.decryptLicense, Subtraction.result, toUInt64, hauth]
    omega
  have hwritten (hdata : 48 ≤ data.length) :
      (∀ r ∈ (c.decryptLicense data uniqueID).result, ∀ t ∈ r, t.1.nbytes < t.1.size) ↔
        c.rsaSize ≤ (c.decOut data uniqueID).length := by
    rw [← c.terminator_inside_iff, c.decryptLicense_result hdata]
    constructor
    · intro hall out hout
      exact hall _ rfl (_, cstr out) (Option.map_eq_some_iff.mpr ⟨out, hout, rfl⟩)
    · rintro hall r ⟨rfl⟩ t ht
      obtain ⟨out, hout, rfl⟩ := Option.map_eq_some_iff.mp ht
      exact hall out hout
  constructor
  · rintro ⟨hhash, hvector, hterminator⟩
    have hdata := hlong.mp ⟨hhash, hvector⟩
    exact ⟨hdata, (hwritten hdata).mp hterminator⟩
  · rintro ⟨hdata, hchunk⟩
    obtain ⟨hhash, hvector⟩ := hlong.mpr hdata
    exact ⟨hhash, hvector, (hwritten hdata).mpr hchunk⟩

/-- A key of 16 bytes, and ciphers that only drop the padding. -/
def shortKey : Crypto where
  hmac _ _ := List.replicate 32 'h'
  hmac_length _ _ := List.length_replicate
  decrypt _ _ message := message.dropLast
  rsaSize := 16
  rsaSize_pos := by decide
  rsaPublicDecrypt chunk := if chunk.length ≤ 16 then some (chunk.drop 11) else none
  padding chunk out h := by
    split_ifs at h
    rw [← Option.some.inj h, List.length_drop]
    omega

/-- A licence of two chunks. -/
theorem decryptLicense_staysInside_two_chunks :
    (shortKey.decryptLicense (List.replicate 81 'a') "id".toList).StaysInside :=
  (decryptLicense_staysInside_iff shortKey (List.replicate 81 'a') "id".toList (by decide)).mpr
    (by decide)

/-- A file of 20 bytes: the hash is taken off data that is shorter. -/
theorem decryptLicense_truncated :
    ¬ ∀ (c : Crypto) (data : List Char) (uniqueID : CString), data.length < 2 ^ 64 →
      (c.decryptLicense data uniqueID).StaysInside := by
  intro h
  have hhash := (h shortKey (List.replicate 20 'a') "id".toList (by decide)).hash
  exact absurd hhash (by decide)

end SerialChrono
