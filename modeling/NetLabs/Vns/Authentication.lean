/-
NetLabs.Vns.Authentication — how the router authenticates itself: the reply
of `sr_handle_auth_request` in `lab1/router/sr_vns_comm.c`, and what
`VNSAuthReply` of `lab1/pox_module/cs144/VNSProtocol.py` reads in it.

The reply holds the name of the user and the digest of the salt and the key,
which is the first line of the file `auth_key`. The code always hashes 64
bytes of the array it has read the line into. So of a short line it hashes the
newline, the NUL and what the array held before as well
(`keyBytes_determined_iff`).

`authentication_agreement` is the exchange across the two languages. The
length word of the reply is true, unlike the one the Python class would
announce.
-/
import NetLabs.Lib.TextLines
import NetLabs.Router.Sha1Digest
import NetLabs.Vns.Framing
import NetLabs.Vns.PacketFraming

namespace NetLabs.Vns

open NetLabs.Lib NetLabs.Lib.Access NetLabs.Lib.SecureHash NetLabs.Router NetLabs.Router.Sha1

/-! ## The reply -/

/-- What `sr_handle_auth_request` meets. -/
structure Login where
  /-- What the file `auth_key` holds, if it can be opened. -/
  authKey : Option (List UInt8)
  /-- What the array `auth_key` holds before. -/
  array : Vector UInt8 65
  /-- What the context `sha1` holds before. -/
  sha1 : Sha1Context
  mallocOk : Bool
  /-- `sr->user`, without its NUL. -/
  user : List UInt8
  /-- What `send(sr->sockfd, buf, len, 0)` returns. -/
  send : List UInt8 → Int

/-- `fgets(auth_key, AUTH_KEY_LEN+1, fp)`: the array behind it, unless the file
cannot be opened or is empty. -/
def Login.readKey (login : Login) : Option (List UInt8) :=
  match login.authKey with
  | none | some [] => none
  | some text =>
      let line := (fgets 10 64 text).1
      some (line ++ 0 :: login.array.toList.drop (line.length + 1))

/-- The bytes that are sent. The last ones are copied over the NUL that
`strcpy` writes behind the name. -/
def replyBytes (user : List UInt8) (digest : Words) : List UInt8 :=
  be32 (UInt32.ofNat (12 + user.length + 20)) ++ be32 (UInt32.ofNat VnsAuthReply.getType) ++
    be32 (UInt32.ofNat user.length) ++ user ++ digest.bytes

/-- `sr_handle_auth_request(sr, req)`, with `req` at the start of `buf`: the
value returned, and what is passed to `send`. -/
def srHandleAuthRequest (login : Login) (buf : List UInt8) : Access (Int × Option (List UInt8)) :=
  match login.readKey with
  | none => .ok (0, none)
  | some authKey => do
      let mLen := ofBe32 (← bytes buf 0 4)
      let salt ← bytes buf cBaseSize (mLen - UInt32.ofNat cBaseSize).toNat
      let sha1 ← sha1Input (sha1Reset login.sha1) salt
      let sha1 ← sha1Input sha1 (authKey.take 64)
      let (ret, sha1) ← sha1Result sha1
      if ¬ ret then .ok (0, none)
      else if ¬ login.mallocOk then .ok (0, none)
      else
        let reply := replyBytes login.user sha1.messageDigest
        .ok (if login.send reply ≠ (12 + login.user.length + 20 : Nat) then 0 else 1, some reply)

/-! ## The key -/

/-- The bytes of the key that are hashed. -/
def Login.keyBytes (login : Login) : Option (List UInt8) := login.readKey.map (·.take 64)

theorem length_fgets_le (text : List UInt8) : (fgets 10 64 text).1.length ≤ 64 := by
  rcases fgets_cases 10 64 text with ⟨line, rest, -, -, short, read⟩ | ⟨-, short, read⟩ |
    ⟨piece, rest, -, -, -, full, read⟩
  · rw [read, List.length_append]
    exact short
  · rwa [read]
  · rw [read]
    exact Nat.le_of_eq full

/-- The key that is hashed, for a file that is not empty. -/
theorem keyBytes_eq (login : Login) {text : List UInt8} (opened : login.authKey = some text)
    (nonempty : text ≠ []) :
    login.keyBytes = some (((fgets 10 64 text).1 ++
      0 :: login.array.toList.drop ((fgets 10 64 text).1.length + 1)).take 64) := by
  obtain ⟨x, rest, rfl⟩ := List.exists_cons_of_ne_nil nonempty
  rw [Login.keyBytes, Login.readKey, opened]
  rfl

/-- The key depends on what the array held before exactly if the line and the
NUL behind it are shorter than 64 bytes. -/
theorem keyBytes_determined_iff (login : Login) {text : List UInt8}
    (opened : login.authKey = some text) (nonempty : text ≠ []) :
    (∀ array, { login with array }.keyBytes = login.keyBytes) ↔
      63 ≤ (fgets 10 64 text).1.length := by
  rw [keyBytes_eq login opened nonempty]
  have fits := length_fgets_le text
  generalize hline : (fgets 10 64 text).1 = line at fits ⊢
  have key (array : Vector UInt8 65) : { login with array }.keyBytes =
      some ((line ++ 0 :: array.toList.drop (line.length + 1)).take 64) := by
    rw [keyBytes_eq { login with array } opened nonempty, hline]
  constructor
  · intro same
    by_contra short
    -- an array that differs everywhere differs behind the NUL
    let other : Vector UInt8 65 := Vector.replicate 65 (login.array[line.length + 1] + 1)
    have byte (array : Vector UInt8 65) :
        ((line ++ 0 :: array.toList.drop (line.length + 1)).take 64)[line.length + 1]? =
          some array[line.length + 1] := by
      rw [List.getElem?_take_of_lt (by omega), List.getElem?_append_right (by omega)]
      simp [show line.length + 1 < 65 by omega]
    have differs := byte other
    rw [Option.some.inj ((key other).symm.trans (same other)), byte login.array] at differs
    have := congrArg UInt8.toNat (Option.some.inj differs)
    simp only [other, Vector.getElem_replicate, UInt8.toNat_add] at this
    have bound := login.array[line.length + 1].toNat_lt
    have one : (1 : UInt8).toNat = 1 := rfl
    omega
  · intro long array
    have front (rest : List UInt8) : (line ++ 0 :: rest).take 64 = (line ++ [0]).take 64 := by
      rw [← List.singleton_append, ← List.append_assoc,
        List.take_append_of_le_length (by simpa using Nat.succ_le_succ long)]
    rw [key array, front, front (login.array.toList.drop _)]

/-! ## The digest -/

/-- The digest of a message in two pieces. -/
theorem digest_of_pieces (sha1 : Sha1Context) (salt key : List UInt8)
    (short : salt.length + key.length < maxBytes) :
    ∃ next last result, sha1Input (sha1Reset sha1) salt = .ok next ∧ sha1Input next key = .ok last ∧
      sha1Result last = .ok (true, result) ∧ result.messageDigest = digest (salt ++ key) := by
  obtain ⟨next, first, holdsSalt⟩ := sha1Input_spec (reset_represents sha1) salt
  have salted : (Digesting.absorbing []).input salt = .absorbing salt := by
    rw [Digesting.input, if_pos (by rw [List.length_nil]; omega), List.nil_append]
  rw [salted] at holdsSalt
  obtain ⟨last, second, holdsBoth⟩ := sha1Input_spec holdsSalt key
  have both : (Digesting.absorbing salt).input key = .absorbing (salt ++ key) := by
    rw [Digesting.input, if_pos short]
  rw [both] at holdsBoth
  obtain ⟨ret, result, computed, -, answer⟩ := sha1Result_spec holdsBoth
  cases ret with
  | false => cases answer
  | true => exact ⟨next, last, result, first, second, computed, Option.some.inj answer⟩

/-- What the function returns and sends, for a request with a true length
word. -/
theorem srHandleAuthRequest_eq (login : Login) (buf salt : List UInt8)
    (word : buf.take 4 = be32 (UInt32.ofNat buf.length)) (rest : buf.drop 8 = salt)
    (size : buf.length = 8 + salt.length) (small : buf.length < 4294967296) :
    srHandleAuthRequest login buf = .ok (match login.keyBytes with
      | none => (0, none)
      | some key =>
        if login.mallocOk then
          let reply := replyBytes login.user (digest (salt ++ key))
          (if login.send reply = (12 + login.user.length + 20 : Nat) then 1 else 0, some reply)
        else (0, none)) := by
  have mLen : bytes buf 0 4 = .ok (be32 (UInt32.ofNat buf.length)) := by
    rw [bytes_inside (by omega), ← word]
    rfl
  have saltSize : (UInt32.ofNat buf.length - UInt32.ofNat cBaseSize).toNat = salt.length := by
    rw [UInt32.toNat_sub_of_le] <;>
      simp only [UInt32.le_iff_toNat_le, UInt32.toNat_ofNat', cBaseSize] <;> omega
  have saltBytes : bytes buf cBaseSize salt.length = .ok salt := by
    rw [bytes_inside (by rw [cBaseSize]; omega), slice, cBaseSize, rest, List.take_length]
  rw [srHandleAuthRequest, Login.keyBytes]
  cases found : login.readKey with
  | none => rfl
  | some authKey =>
    have keySize : (authKey.take 64).length ≤ 64 := List.length_take_le _ _
    obtain ⟨next, last, result, first, second, computed, value⟩ :=
      digest_of_pieces login.sha1 salt (authKey.take 64) (by rw [maxBytes]; omega)
    simp only [mLen, ok_bind, ofBe32_be32, saltSize, saltBytes, first, second, computed, value,
      Option.map_some, not_true, if_false]
    cases login.mallocOk with
    | false => rfl
    | true => simp [ite_not]

/-! ## The exchange -/

@[simp] theorem length_replyBytes (user : List UInt8) (digest : Words) :
    (replyBytes user digest).length = 12 + user.length + 20 := by
  simp only [replyBytes, List.length_append, length_be32, Words.length_bytes]

/-- A length, packed. -/
theorem structPack_length {n : Nat} (small : (n : Int) < 4294967296) :
    structPack [.uint32] [.num n] = .ok (be32 (UInt32.ofNat n)) := by
  have word : PyStruct.Code.uint32.pack (.num n) = some (be32 (UInt32.ofNat n)) := by
    rw [PyStruct.Code.pack, if_pos ⟨Int.natCast_nonneg _, small⟩, Int.toNat_natCast]
  rw [structPack, PyStruct.pack, PyStruct.pack, word]
  simp only [Option.bind_eq_bind, Option.bind_some, List.append_nil, Raised.of]

theorem unpack_authReply (body : List UInt8) :
    VnsMessage.unpack VnsAuthReply.getType body =
      some (.authReply <$> VnsAuthReply.unpack body) := rfl

/-- The server finds the name and the digest in the reply. -/
theorem unpack_replyBytes {user : List UInt8} (small : user.length < 4294967264)
    (digest : Words) :
    lengthWord (replyBytes user digest) = some (replyBytes user digest).length ∧
      VnsMessage.unpack (ofBe32 (slice (replyBytes user digest) 4 4)).toNat
          ((replyBytes user digest).drop 8) =
        some (.ok (.authReply ⟨user, digest.bytes⟩)) := by
  have length := length_replyBytes user digest
  have split : replyBytes user digest = be32 (UInt32.ofNat (12 + user.length + 20)) ++
      (be32 (UInt32.ofNat VnsAuthReply.getType) ++
        (be32 (UInt32.ofNat user.length) ++ user ++ digest.bytes)) := by
    simp only [replyBytes, List.append_assoc]
  constructor
  · rw [lengthWord, if_pos (by omega), length, split, List.take_left' (length_be32 _), ofBe32_be32,
      UInt32.toNat_ofNat']
    congr 1
    omega
  · have type : slice (replyBytes user digest) 4 4 = be32 (UInt32.ofNat VnsAuthReply.getType) := by
      rw [slice, split, List.drop_left' (length_be32 _), List.take_left' (length_be32 _)]
    have body : (replyBytes user digest).drop 8 =
        be32 (UInt32.ofNat user.length) ++ user ++ digest.bytes := by
      rw [split, ← List.append_assoc, List.drop_left' (by rfl)]
    obtain ⟨packed, packs, unpacks⟩ := authReply_roundTrip (m := ⟨user, digest.bytes⟩)
      (show user.length < 4294967296 by omega)
    have same : packed = be32 (UInt32.ofNat user.length) ++ user ++ digest.bytes := by
      rw [VnsAuthReply.pack, structPack_length (n := user.length) (by omega)] at packs
      exact (Except.ok.inj packs).symm
    have kind : (UInt32.ofNat VnsAuthReply.getType).toNat = VnsAuthReply.getType := rfl
    rw [type, body, ofBe32_be32, kind, ← same, unpack_authReply, unpacks]
    rfl

/-- The router answers a request of the server by a reply in which the server
finds its user and the digest of the salt and the key. The second word of the
request, which `sr_read_from_server_expect` converts in place, does not
matter. -/
theorem authentication_agreement (lt : LtProtocol) (login : Login) {salt key : List UInt8}
    (smallSalt : 8 + salt.length ≤ 10000) (smallUser : login.user.length < 4294967264)
    (read : login.keyBytes = some key) :
    ∃ body reply, (VnsAuthRequest.mk salt).pack = .ok body ∧
      (∀ word : List UInt8, word.length = 4 →
        srHandleAuthRequest login
            (put (lt.header body.length VnsAuthRequest.getType ++ body) 4 word) =
          .ok (if login.mallocOk then
            (if login.send reply = (reply.length : Int) then 1 else 0, some reply)
            else (0, none))) ∧
      lengthWord reply = some reply.length ∧
      VnsMessage.unpack (ofBe32 (slice reply 4 4)).toNat (reply.drop 8) =
        some (.ok (.authReply ⟨login.user, (digest (salt ++ key)).bytes⟩)) := by
  refine ⟨salt, replyBytes login.user (digest (salt ++ key)), rfl, fun word size => ?_,
    unpack_replyBytes smallUser _⟩
  have request : put (lt.header salt.length VnsAuthRequest.getType ++ salt) 4 word =
      be32 (UInt32.ofNat (8 + salt.length)) ++ word ++ salt := by
    rw [lt.header_eq _ _ (by omega) (by decide), put_middle (by rfl) (by rw [size]; rfl)]
  have length : (be32 (UInt32.ofNat (8 + salt.length)) ++ word ++ salt).length =
      8 + salt.length := by
    rw [List.length_append, List.length_append, length_be32, size]
  rw [request, srHandleAuthRequest_eq login _ salt
    (by rw [length, List.append_assoc, List.take_left' (length_be32 _)])
    (List.drop_left' (by rw [List.length_append, length_be32, size])) length (by omega), read,
    length_replyBytes]

/-- A router whose key is not as long as the array. -/
def sampleLogin : Login where
  authKey := some [107, 101, 121, 10]
  array := Vector.replicate 65 7
  sha1 := ⟨initial, 0, 0, Vector.replicate 64 9, 0, false, false⟩
  mallocOk := true
  user := [117]
  send reply := reply.length

theorem authentication_agreement_sample :
    ∃ body reply, (VnsAuthRequest.mk [1, 2, 3]).pack = .ok body ∧
      (∀ word : List UInt8, word.length = 4 →
        srHandleAuthRequest sampleLogin
            (put (LtProtocol.plain.header body.length VnsAuthRequest.getType ++ body) 4 word) =
          .ok (if sampleLogin.mallocOk then
            (if sampleLogin.send reply = (reply.length : Int) then 1 else 0, some reply)
            else (0, none))) ∧
      lengthWord reply = some reply.length ∧
      VnsMessage.unpack (ofBe32 (slice reply 4 4)).toNat (reply.drop 8) =
        some (.ok (.authReply ⟨sampleLogin.user,
          (digest ([1, 2, 3] ++ ([107, 101, 121, 10, 0] ++ List.replicate 59 7))).bytes⟩)) :=
  authentication_agreement LtProtocol.plain sampleLogin (by decide) (by decide) (by decide)

theorem keyBytes_determined_iff_sample :
    (∀ array, { sampleLogin with array }.keyBytes = sampleLogin.keyBytes) ↔
      63 ≤ (fgets (10 : UInt8) 64 [107, 101, 121, 10]).1.length :=
  keyBytes_determined_iff sampleLogin rfl (by decide)

end NetLabs.Vns
