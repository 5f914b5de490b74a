import Mathlib.Data.List.Sort
import RocNet.Model.Bytes

/-!
# Noise handshakes

`Handshake` of `platform/Noise.roc`: a handshake pattern is a list of messages, each a list of tokens, and
`write_message!` and `read_message!` interpret the tokens of the next message over the symmetric state.

SHA-256, X25519 and the AEADs are parameters, and so is the secret key that a random ephemeral key comes to: no
message of a pattern has two `E` tokens. A Roc `crash`, and integer arithmetic that leaves its range, ends a
computation with a `Crash`. The symmetric state keeps, as a history, what its hash was mixed from.
-/

namespace RocNet.NoiseHandshake

open Bytes Fallible

/-! ## Keys and primitives -/

/-- `X25519.SecretKey`: 32 bytes. -/
structure SecretKey where
  bytes : List UInt8
  length : bytes.length = 32
  deriving DecidableEq, Repr

/-- `X25519.PublicKey`: 32 bytes. -/
structure PublicKey where
  bytes : List UInt8
  length : bytes.length = 32
  deriving DecidableEq, Repr

inductive Cipher
  | chaChaPoly
  | aesGcm
  deriving DecidableEq, Repr

/-- What the platform computes with. -/
structure Primitives where
  sha256 : List UInt8 → Vector UInt8 32
  x25519PublicKey : SecretKey → PublicKey
  -- `none` for a low-order point
  x25519Shared : SecretKey → PublicKey → Option (List UInt8)
  aeadSeal : Cipher → (key nonce associatedData plaintext : List UInt8) → List UInt8
  aeadOpen : Cipher → (key nonce associatedData ciphertext : List UInt8) → Option (List UInt8)

structure KeyPair where
  secret : SecretKey
  pub : PublicKey
  deriving DecidableEq, Repr

/-- The pair of a secret key, with `public_key!`. -/
def Primitives.pair (P : Primitives) (secret : SecretKey) : KeyPair := ⟨secret, P.x25519PublicKey secret⟩

/-- Why the program ends. -/
inductive Crash
  -- "Noise: no static key to send (start! checks for one)"
  | noStaticKey
  -- "Noise: more psk tokens than pre-shared keys"
  | moreTokensThanPsks
  -- "Noise: a key a token needs isn't there"
  | missingKey
  -- "Noise: a 32-byte public key was rejected"
  | publicKeyRejected
  -- "Noise: a 32-byte key or 12-byte nonce was rejected"
  | aeadRejected
  -- integer arithmetic left the range of `U64`
  | overflow
  deriving DecidableEq, Repr

instance : Overflows Crash := ⟨.overflow⟩

/-- `U64.highest`. -/
def highest : ℕ := 2 ^ 64 - 1

/-! ## Patterns -/

inductive Pattern
  | N | K | X | NN | NK | NX | KN | KK | KX | XN | XK | XX | IN | IK | IX
  deriving DecidableEq, Repr

inductive Role
  | initiator
  | responder
  deriving DecidableEq, Repr

def Role.other : Role → Role
  | .initiator => .responder
  | .responder => .initiator

inductive Token
  | e | s | ee | es | se | ss | psk
  deriving DecidableEq, Repr

/-- `pattern_name`. -/
def patternName : Pattern → String
  | .N => "N"
  | .K => "K"
  | .X => "X"
  | .NN => "NN"
  | .NK => "NK"
  | .NX => "NX"
  | .KN => "KN"
  | .KK => "KK"
  | .KX => "KX"
  | .XN => "XN"
  | .XK => "XK"
  | .XX => "XX"
  | .IN => "IN"
  | .IK => "IK"
  | .IX => "IX"

/-- Whether each side's static key is known in advance, and the messages, alternating from the
initiator. -/
structure Shape where
  initiatorPre : Bool
  responderPre : Bool
  messages : List (List Token)

/-- Whether this side's static key is known in advance. -/
def Shape.pre (shape : Shape) : Role → Bool
  | .initiator => shape.initiatorPre
  | .responder => shape.responderPre

/-- `pattern_shape`. -/
def patternShape : Pattern → Shape
  | .N => ⟨false, true, [[.e, .es]]⟩
  | .K => ⟨true, true, [[.e, .es, .ss]]⟩
  | .X => ⟨false, true, [[.e, .es, .s, .ss]]⟩
  | .NN => ⟨false, false, [[.e], [.e, .ee]]⟩
  | .NK => ⟨false, true, [[.e, .es], [.e, .ee]]⟩
  | .NX => ⟨false, false, [[.e], [.e, .ee, .s, .es]]⟩
  | .KN => ⟨true, false, [[.e], [.e, .ee, .se]]⟩
  | .KK => ⟨true, true, [[.e, .es, .ss], [.e, .ee, .se]]⟩
  | .KX => ⟨true, false, [[.e], [.e, .ee, .se, .s, .es]]⟩
  | .XN => ⟨false, false, [[.e], [.e, .ee], [.s, .se]]⟩
  | .XK => ⟨false, true, [[.e, .es], [.e, .ee], [.s, .se]]⟩
  | .XX => ⟨false, false, [[.e], [.e, .ee, .s, .es], [.s, .se]]⟩
  | .IN => ⟨false, false, [[.e, .s], [.e, .ee, .se]]⟩
  | .IK => ⟨false, true, [[.e, .es, .s, .ss], [.e, .ee, .se]]⟩
  | .IX => ⟨false, false, [[.e, .s], [.e, .ee, .se, .s, .es]]⟩

/-! ## Configurations -/

structure Psk where
  position : ℕ
  key : List UInt8
  deriving DecidableEq, Repr

/-- Which ephemeral key a side uses. -/
inductive Ephemeral
  | random
  | fixed (secret : SecretKey)
  deriving DecidableEq, Repr

/-- The secret key of the ephemeral key, where a new one would be `fresh`. -/
def Ephemeral.secret (fresh : SecretKey) : Ephemeral → SecretKey
  | .fixed secret => secret
  | .random => fresh

structure Config where
  pattern : Pattern
  role : Role
  cipher : Cipher
  prologue : List UInt8
  staticKey : Option SecretKey
  remoteStaticKey : Option PublicKey
  psks : List Psk
  ephemeral : Ephemeral
  deriving DecidableEq, Repr

/-- `sort_psks`. -/
def sortPsks (psks : List Psk) : List Psk := psks.insertionSort fun a b => a.position ≤ b.position

/-- `Config.protocol_name`. -/
def Config.protocolName (c : Config) : String :=
  let positions := (sortPsks c.psks).map fun psk => "psk" ++ toString psk.position
  let cipher := match c.cipher with
    | .chaChaPoly => "ChaChaPoly"
    | .aesGcm => "AESGCM"
  "Noise_" ++ patternName c.pattern ++ String.intercalate "+" positions ++ "_25519_" ++ cipher ++ "_SHA256"

/-- How `start!` fails. -/
inductive StartErr
  | missingStatic
  | missingRemoteStatic
  | badPsk
  deriving DecidableEq, Repr

/-- The messages with the token of one psk added: at the start of the first, or at the end of the one
its position says. -/
def addPsk (count : ℕ) (x : List (List Token) × ℕ) (psk : Psk) :
    Result StartErr Crash (List (List Token) × ℕ) :=
  if psk.position = x.2 ∨ psk.position > count then fail .badPsk
  else if psk.position = 0 then
    pure (x.1.mapIdx fun i tokens => if i = 0 then .psk :: tokens else tokens, psk.position)
  else do
    let last ← sub64 psk.position 1
    pure (x.1.mapIdx fun i tokens => if i = last then tokens ++ [.psk] else tokens, psk.position)

/-- `add_psks`, of the sorted psks. -/
def addPsks (messages : List (List Token)) (psks : List Psk) : Result StartErr Crash (List (List Token)) := do
  let x ← psks.foldlM (addPsk messages.length) (messages, highest)
  pure x.1

/-! ## The symmetric state -/

/-- What is mixed into the hash. -/
inductive Part
  | prologue
  | preStatic (owner : Role)
  | ephemeral (owner : Role)
  -- the static key of the owner, which is mixed in as it is sent
  | static (owner : Role) (key : List UInt8)
  | psk
  | payload
  deriving DecidableEq, Repr

structure Symmetric where
  cipher : Cipher
  h : List UInt8
  ck : List UInt8
  k : Option (List UInt8)
  n : ℕ
  transcript : List (Part × List UInt8)
  deriving DecidableEq, Repr

/-- How the writing and reading of messages fails. -/
inductive HandshakeErr
  | notMyTurn
  | finished
  | tooLong
  | tooShort
  | invalid
  | lowOrderPoint
  | nonceExhausted
  deriving DecidableEq, Repr

section Symmetric

variable (P : Primitives)

/-- The key of an HMAC, as one block: its hash if it is longer, then zeros. -/
def hmacBlock (key : List UInt8) : Vector UInt8 64 :=
  if h : key.length > 64 then ⟨((P.sha256 key).toList ++ List.replicate (64 - 32) 0).toArray, by simp⟩
  else ⟨(key ++ List.replicate (64 - key.length) 0).toArray, by
    rw [List.size_toArray, List.length_append, List.length_replicate]
    omega⟩

/-- `HmacSha256.tag` (Cryptography.roc:228-237). -/
def tag (key message : List UInt8) : List UInt8 :=
  let padded := (hmacBlock P key).toList
  let innerPad := padded.map fun b => b ^^^ 0x36
  let outerPad := padded.map fun b => b ^^^ 0x5c
  let inner := (P.sha256 (innerPad ++ message)).toList
  (P.sha256 (outerPad ++ inner)).toList

/-- `mix_hash`. -/
def mixHash (sym : Symmetric) (part : Part) (data : List UInt8) : Symmetric :=
  { sym with h := (P.sha256 (sym.h ++ data)).toList, transcript := sym.transcript ++ [(part, data)] }

/-- `hkdf2`. -/
def hkdf2 (chainingKey input : List UInt8) : List UInt8 × List UInt8 :=
  let temp := tag P chainingKey input
  let first := tag P temp [1]
  (first, tag P temp (first ++ [2]))

/-- `mix_key`. -/
def mixKey (sym : Symmetric) (input : List UInt8) : Symmetric :=
  let (ck, key) := hkdf2 P sym.ck input
  { sym with ck, k := some key, n := 0 }

/-- `mix_key_and_hash`. -/
def mixKeyAndHash (sym : Symmetric) (input : List UInt8) : Symmetric :=
  let temp := tag P sym.ck input
  let ck := tag P temp [1]
  let tempH := tag P temp (ck ++ [2])
  let key := tag P temp (tempH ++ [3])
  { mixHash P { sym with ck } .psk tempH with k := some key, n := 0 }

/-- `nonce_bytes`. -/
def nonceBytes (cipher : Cipher) (n : ℕ) : List UInt8 :=
  match cipher with
  | .chaChaPoly => [0, 0, 0, 0] ++ u64Le (.ofNat n)
  | .aesGcm => [0, 0, 0, 0] ++ u64Be (.ofNat n)

/-- Whether `key_from_bytes` and `nonce_from_bytes` accept the key and the nonce. -/
def accepted (key nonce : List UInt8) : Bool := key.length == 32 && nonce.length == 12

/-- `seal!`. -/
def sealWith (cipher : Cipher) (key : List UInt8) (n : ℕ) (associatedData plaintext : List UInt8) :
    Result HandshakeErr Crash (List UInt8) :=
  if accepted key (nonceBytes cipher n) then
    pure (P.aeadSeal cipher key (nonceBytes cipher n) associatedData plaintext)
  else crash .aeadRejected

/-- `open!`. -/
def openWith (cipher : Cipher) (key : List UInt8) (n : ℕ) (associatedData sealed : List UInt8) :
    Result HandshakeErr Crash (List UInt8) :=
  if accepted key (nonceBytes cipher n) then
    match P.aeadOpen cipher key (nonceBytes cipher n) associatedData sealed with
    | some plaintext => pure plaintext
    | none => fail .invalid
  else crash .aeadRejected

/-- `encrypt_and_hash!`. -/
def encryptAndHash (sym : Symmetric) (part : Part) (plaintext : List UInt8) :
    Result HandshakeErr Crash (List UInt8 × Symmetric) :=
  match sym.k with
  | none => pure (plaintext, mixHash P sym part plaintext)
  | some key =>
    if sym.n = highest then fail .nonceExhausted
    else do
      let sealed ← sealWith P sym.cipher key sym.n sym.h plaintext
      let n ← add64 sym.n 1
      pure (sealed, mixHash P { sym with n } part sealed)

/-- `decrypt_and_hash!`; what is mixed in may depend on the plaintext. -/
def decryptAndHash (sym : Symmetric) (part : List UInt8 → Part) (data : List UInt8) :
    Result HandshakeErr Crash (List UInt8 × Symmetric) :=
  match sym.k with
  | none => pure (data, mixHash P sym (part data) data)
  | some key =>
    if sym.n = highest then fail .nonceExhausted
    else do
      let plaintext ← openWith P sym.cipher key sym.n sym.h data
      let n ← add64 sym.n 1
      pure (plaintext, mixHash P { sym with n } (part plaintext) data)

end Symmetric

/-! ## Handshakes -/

structure Handshake where
  role : Role
  sym : Symmetric
  s : Option KeyPair
  e : Option KeyPair
  rs : Option PublicKey
  re : Option PublicKey
  psks : List (List UInt8)
  pskMode : Bool
  messages : List (List Token)
  index : ℕ
  ephemeral : Ephemeral
  deriving DecidableEq, Repr

/-- `my_turn`. -/
def Handshake.myTurn (h : Handshake) : Bool := (h.index % 2 == 0) == (h.role == .initiator)

/-- `is_finished`. -/
def Handshake.isFinished (h : Handshake) : Bool := decide (h.index ≥ h.messages.length)

/-- `next_tokens`. -/
def nextTokens (h : Handshake) : Result HandshakeErr Crash (List Token) :=
  match h.messages[h.index]? with
  | none => fail .finished
  | some tokens => if h.myTurn then pure tokens else fail .notMyTurn

/-- `next_tokens_to_read`. -/
def nextTokensToRead (h : Handshake) : Result HandshakeErr Crash (List Token) :=
  match h.messages[h.index]? with
  | none => fail .finished
  | some tokens => if h.myTurn then fail .notMyTurn else pure tokens

/-- `Bytes.take`. -/
def takeBytes (bytes : List UInt8) (count : ℕ) : Result HandshakeErr Crash (List UInt8 × List UInt8) :=
  if bytes.length < count then fail .tooShort else pure (bytes.take count, bytes.drop count)

/-- `public_key`. -/
def publicKey (bytes : List UInt8) : Result HandshakeErr Crash PublicKey :=
  if h : bytes.length = 32 then pure ⟨bytes, h⟩ else crash .publicKeyRejected

section Messages

variable (P : Primitives)

/-- `use_psk`. -/
def usePsk (h : Handshake) : Result HandshakeErr Crash Handshake :=
  match h.psks with
  | psk :: rest => pure { h with psks := rest, sym := mixKeyAndHash P h.sym psk }
  | [] => crash .moreTokensThanPsks

/-- The keys of a Diffie-Hellman token, from this side's view. -/
def dhKeys (h : Handshake) (token : Token) : Option KeyPair × Option PublicKey :=
  let initiator := h.role == .initiator
  match token with
  | .ee => (h.e, h.re)
  | .es => if initiator then (h.e, h.rs) else (h.s, h.re)
  | .se => if initiator then (h.s, h.re) else (h.e, h.rs)
  | _ => (h.s, h.rs)

/-- `dh!`. -/
def dh (h : Handshake) (token : Token) : Result HandshakeErr Crash (List UInt8) :=
  match dhKeys h token with
  | (some pair, some pub) =>
    match P.x25519Shared pair.secret pub with
    | some shared => pure shared
    | none => fail .lowOrderPoint
  | _ => crash .missingKey

/-- An ephemeral key, sent or received, is mixed in: with psks, into the chaining key as well. -/
def mixEphemeral (h : Handshake) (owner : Role) (pub : List UInt8) : Symmetric :=
  let sym := mixHash P h.sym (.ephemeral owner) pub
  if h.pskMode then mixKey P sym pub else sym

/-- One token of a message being written, which is `out` so far. A new random key is `fresh`. -/
def writeToken (fresh : SecretKey) (x : Handshake × List UInt8) (token : Token) :
    Result HandshakeErr Crash (Handshake × List UInt8) :=
  let (h, out) := x
  match token with
  | .e =>
    let pair := P.pair (h.ephemeral.secret fresh)
    let pub := pair.pub.bytes
    pure ({ h with e := some pair, sym := mixEphemeral P h h.role pub }, out ++ pub)
  | .s =>
    match h.s with
    | some pair => do
      let (sealed, sym) ← encryptAndHash P h.sym (.static h.role pair.pub.bytes) pair.pub.bytes
      pure ({ h with sym }, out ++ sealed)
    | none => crash .noStaticKey
  | .psk => do
    let h ← usePsk P h
    pure (h, out)
  | token => do
    let shared ← dh P h token
    pure ({ h with sym := mixKey P h.sym shared }, out)

/-- The tokens and the payload of a message, before its length is checked. -/
def compose (h : Handshake) (tokens : List Token) (payload : List UInt8) (fresh : SecretKey) :
    Result HandshakeErr Crash (List UInt8 × Handshake) := do
  let (h, out) ← tokens.foldlM (writeToken P fresh) (h, [])
  let (sealed, sym) ← encryptAndHash P h.sym .payload payload
  pure (out ++ sealed, { h with sym })

/-- `write_message!`. -/
def writeMessage (h : Handshake) (payload : List UInt8) (fresh : SecretKey) :
    Result HandshakeErr Crash (List UInt8 × Handshake) := do
  let tokens ← nextTokens h
  let (message, h) ← compose P h tokens payload fresh
  if message.length > 65535 then fail .tooLong
  else
    let index ← add64 h.index 1
    pure (message, { h with index })

/-- One token of a message being read, of which `rest` is left. -/
def readToken (x : Handshake × List UInt8) (token : Token) :
    Result HandshakeErr Crash (Handshake × List UInt8) :=
  let (h, rest) := x
  match token with
  | .e => do
    let (bytes, rest) ← takeBytes rest 32
    let pub ← publicKey bytes
    pure ({ h with re := some pub, sym := mixEphemeral P h h.role.other bytes }, rest)
  | .s => do
    let length := if h.sym.k.isSome then 48 else 32
    let (sealed, rest) ← takeBytes rest length
    let (bytes, sym) ← decryptAndHash P h.sym (.static h.role.other) sealed
    let pub ← publicKey bytes
    pure ({ h with rs := some pub, sym }, rest)
  | .psk => do
    let h ← usePsk P h
    pure (h, rest)
  | token => do
    let shared ← dh P h token
    pure ({ h with sym := mixKey P h.sym shared }, rest)

/-- `read_message!`. -/
def readMessage (h : Handshake) (message : List UInt8) :
    Result HandshakeErr Crash (List UInt8 × Handshake) :=
  if message.length > 65535 then fail .tooLong
  else do
    let tokens ← nextTokensToRead h
    let (h, rest) ← tokens.foldlM (readToken P) (h, message)
    let (payload, sym) ← decryptAndHash P h.sym (fun _ => .payload) rest
    let index ← add64 h.index 1
    pure (payload, { h with sym, index })

end Messages

/-! ## The ends of a handshake -/

structure CipherState where
  cipher : Cipher
  key : List UInt8
  nonce : ℕ
  deriving DecidableEq, Repr

/-- What a handshake gives. -/
structure Finished where
  send : CipherState
  receive : CipherState
  handshakeHash : List UInt8
  remoteStaticKey : Option PublicKey
  deriving DecidableEq, Repr

/-- `finish`; `none` for `NotFinished`. -/
def finish (P : Primitives) (h : Handshake) : Option Finished :=
  if h.index < h.messages.length then none
  else
    let (first, second) := hkdf2 P h.sym.ck []
    let c1 : CipherState := ⟨h.sym.cipher, first, 0⟩
    let c2 : CipherState := ⟨h.sym.cipher, second, 0⟩
    let (send, receive) := match h.role with
      | .initiator => (c1, c2)
      | .responder => (c2, c1)
    some ⟨send, receive, h.sym.h, h.rs⟩

section CipherState

variable (P : Primitives) (c : CipherState) (associatedData : List UInt8)

/-- `CipherState.encrypt!`. -/
def CipherState.encrypt (plaintext : List UInt8) : Result HandshakeErr Crash (List UInt8 × CipherState) :=
  if c.nonce = highest then fail .nonceExhausted
  else do
    let sealed ← sealWith P c.cipher c.key c.nonce associatedData plaintext
    let nonce ← add64 c.nonce 1
    pure (sealed, { c with nonce })

/-- `CipherState.decrypt!`. -/
def CipherState.decrypt (ciphertext : List UInt8) : Result HandshakeErr Crash (List UInt8 × CipherState) :=
  if c.nonce = highest then fail .nonceExhausted
  else do
    let plaintext ← openWith P c.cipher c.key c.nonce associatedData ciphertext
    let nonce ← add64 c.nonce 1
    pure (plaintext, { c with nonce })

end CipherState

section Start

variable (P : Primitives)

/-- Whether a side's messages have a token `S`. -/
def sendsStatic (role : Role) (messages : List (List Token)) : Bool :=
  let parity := if role = .initiator then 0 else 1
  let mine := messages.zipIdx.filter fun x => x.2 % 2 == parity
  mine.any fun x => x.1.contains .s

/-- This side's static key pair, which the configuration must have if it is `needed`. -/
def staticPair (c : Config) (needed : Bool) : Result StartErr Crash (Option KeyPair) :=
  match c.staticKey with
  | some secret => pure (some (P.pair secret))
  | none => if needed then fail .missingStatic else pure none

/-- The hash that the protocol name starts from. -/
def nameHash (c : Config) : Result StartErr Crash (List UInt8) :=
  let name := c.protocolName.toUTF8.data.toList
  if name.length ≤ 32 then do
    let pad ← sub64 32 name.length
    pure (name ++ List.replicate pad 0)
  else pure (P.sha256 name).toList

/-- The static key of a pre-message, as this side has it. -/
def preKey (c : Config) (s : Option KeyPair) (owner : Role) : List UInt8 :=
  if owner = c.role then
    match s with
    | some pair => pair.pub.bytes
    | none => []
  else
    match c.remoteStaticKey with
    | some key => key.bytes
    | none => []

/-- The pre-message of one side. -/
def preMessage (c : Config) (s : Option KeyPair) (sym : Symmetric) (x : Bool × Role) : Symmetric :=
  let (present, owner) := x
  if present then mixHash P sym (.preStatic owner) (preKey c s owner) else sym

/-- The handshake that `start!` returns, with the messages, this side's static key and the hash of the
protocol name. -/
def firstHandshake (c : Config) (messages : List (List Token)) (s : Option KeyPair) (h : List UInt8) :
    Handshake :=
  let shape := patternShape c.pattern
  let psks := sortPsks c.psks
  let sym := mixHash P ⟨c.cipher, h, h, none, 0, []⟩ .prologue c.prologue
  let preKeys := [(shape.initiatorPre, .initiator), (shape.responderPre, .responder)]
  { role := c.role
    sym := preKeys.foldl (preMessage P c s) sym
    s
    e := none
    rs := c.remoteStaticKey
    re := none
    psks := psks.map Psk.key
    pskMode := !psks.isEmpty
    messages
    index := 0
    ephemeral := c.ephemeral }

/-- `start!`. -/
def start (c : Config) : Result StartErr Crash Handshake :=
  let shape := patternShape c.pattern
  let psks := sortPsks c.psks
  if psks.any fun psk => psk.key.length != 32 then fail .badPsk
  else do
    let messages ← addPsks shape.messages psks
    let s ← staticPair P c (sendsStatic c.role messages || shape.pre c.role)
    if shape.pre c.role.other && c.remoteStaticKey.isNone then fail .missingRemoteStatic
    else
      let h ← nameHash P c
      pure (firstHandshake P c messages s h)

end Start

end RocNet.NoiseHandshake
