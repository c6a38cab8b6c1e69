-- What the daemon takes from outside the repository: the cryptography
-- package, lz4, pybloom_live, json, the clock and the random source.
import BitchatNode.Python.Bytes

namespace bitchat

open python

/-! ## Exceptions -/

inductive PyError
  | ValueError (text : String)
  | NoiseError (text : String)
  | NameError (name : String)
  | IndexError
  | AttributeError
  | StructError
  | UnicodeDecodeError
  | OverflowError
  | InvalidTag
  | ConnectionError
deriving DecidableEq, Repr

/-- `str(e)`, as the log lines and the wrapped errors show it. -/
def PyError.text : PyError → String
  | .ValueError text => text
  | .NoiseError text => text
  | .NameError name => "name '" ++ name ++ "' is not defined"
  | _ => ""

/-! ## Packages -/

/-- The primitives of the `cryptography` package. `none` stands for the
exception that the package raises. -/
class Crypto where
  PrivateKey : Type
  PublicKey : Type
  public_key : PrivateKey → PublicKey
  public_bytes : PublicKey → Bytes
  from_public_bytes : Bytes → Option PublicKey
  exchange : PrivateKey → PublicKey → Option Bytes
  sha256 : Bytes → Bytes
  hmac_sha256 (key data : Bytes) : Bytes
  chacha_encrypt (key nonce data ad : Bytes) : Bytes
  chacha_decrypt (key nonce data ad : Bytes) : Option Bytes
  pbkdf2 (password salt : Bytes) : Bytes
  aesgcm_decrypt (key nonce data : Bytes) : Option Bytes

/-- What the package documents: raw keys are 32 bytes and read back, an
exchange between generated keys succeeds and commutes, and decryption under
the same key, nonce and associated data inverts encryption, which adds a tag
of 16 bytes. -/
class LawfulCrypto [Crypto] : Prop where
  length_public_bytes (k : Crypto.PublicKey) : (Crypto.public_bytes k).length = 32
  from_public_bytes_public_bytes (k : Crypto.PublicKey) :
    Crypto.from_public_bytes (Crypto.public_bytes k) = some k
  exchange_comm (a b : Crypto.PrivateKey) : ∃ s,
    Crypto.exchange a (Crypto.public_key b) = some s ∧
      Crypto.exchange b (Crypto.public_key a) = some s
  chacha_decrypt_encrypt (key nonce data ad : Bytes) :
    Crypto.chacha_decrypt key nonce (Crypto.chacha_encrypt key nonce data ad) ad = some data
  length_chacha_encrypt (key nonce data ad : Bytes) :
    (Crypto.chacha_encrypt key nonce data ad).length = data.length + 16

/-- All packages: `cryptography`, `lz4.frame`, `pybloom_live` and `json`. -/
class Packages extends Crypto where
  lz4_decompress : Bytes → Option Bytes
  BloomFilter : Type
  bloom_make (capacity : Nat) : BloomFilter
  bloom_capacity : BloomFilter → Nat
  bloom_count : BloomFilter → Nat
  /-- `none` stands for the `IndexError` of a filter at capacity. -/
  bloom_add : BloomFilter → Str → Option BloomFilter
  /-- A JSON value, as `json.loads` gives it. -/
  JsonValue : Type
  json_loads : Bytes → Option JsonValue
  /-- The value under a key of an object; the outer `none` stands for the
  exception on a value that is no object. -/
  json_get : JsonValue → Str → Option (Option JsonValue)
  /-- The value as a `str`, if it is one. -/
  json_str : JsonValue → Option Str

/-- What pybloom_live documents: a filter counts the keys that it did not
seem to hold before, and refuses a key once it has counted more than its
capacity. -/
class LawfulBloom [Packages] : Prop where
  capacity_make (n : Nat) : Packages.bloom_capacity (Packages.bloom_make n) = n
  count_make (n : Nat) : Packages.bloom_count (Packages.bloom_make n) = 0
  add_eq_none_iff (f : Packages.BloomFilter) (key : Str) :
    Packages.bloom_add f key = none ↔ Packages.bloom_capacity f < Packages.bloom_count f
  capacity_add {f g : Packages.BloomFilter} {key : Str} (h : Packages.bloom_add f key = some g) :
    Packages.bloom_capacity g = Packages.bloom_capacity f
  count_add_le {f g : Packages.BloomFilter} {key : Str} (h : Packages.bloom_add f key = some g) :
    Packages.bloom_count g ≤ Packages.bloom_count f + 1

/-! ## Clock and randomness -/

/-- `os.urandom`: as many bytes as asked for. -/
structure Entropy where
  urandom : Nat → Bytes
  length_urandom : ∀ n, (urandom n).length = n

/-- `str(uuid.uuid4())`: 36 characters, hex digits and dashes. -/
structure Uuid where
  str : Str
  length_str : str.length = 36
  chars : ∀ c ∈ str, c ∈ "0123456789abcdef-".toList

/-- What one call reads from the clock and the random source. The clock is
in microseconds; CPython keeps it in a signed 64-bit count of nanoseconds. -/
structure Draw [Crypto] where
  time_us : UInt64
  entropy : Entropy
  uuid : Uuid
  generate : Crypto.PrivateKey

/-- `int(time.time() * 1000)`. -/
def Draw.timestamp_ms [Crypto] (d : Draw) : Nat := d.time_us.toNat / 1000

theorem Draw.timestamp_ms_lt [Crypto] (d : Draw) : d.timestamp_ms < 256 ^ 8 := by
  have h := d.time_us.toNat_lt
  unfold Draw.timestamp_ms
  omega

/-! ## A stand-in

Small total functions that obey the laws above. They let the definitions be
evaluated on concrete input. -/

namespace standIn

/-- A checksum of `data`, as 16 bytes. -/
def checksum (data : Bytes) : Bytes :=
  be 16 (data.foldl (fun acc b => (257 * acc + b.toNat + 1) % 2 ^ 128) 7)

/-- A digest of `data`, as 32 bytes. -/
def digest (data : Bytes) : Bytes := checksum data ++ checksum (0 :: data)

def encrypt (key nonce data ad : Bytes) : Bytes := data ++ checksum (key ++ nonce ++ ad ++ data)

/-- The bytes before the tag, if the tag is the one that `encrypt` adds. -/
def decrypt (key nonce data ad : Bytes) : Option Bytes :=
  let plain := data.take (data.length - 16)
  if encrypt key nonce plain ad = data then some plain else none

theorem length_checksum (data : Bytes) : (checksum data).length = 16 := length_be 16 _

theorem decrypt_encrypt (key nonce data ad : Bytes) :
    decrypt key nonce (encrypt key nonce data ad) ad = some data := by
  have h : (encrypt key nonce data ad).take ((encrypt key nonce data ad).length - 16) = data := by
    simp [encrypt, length_checksum]
  simp only [decrypt, h, if_true]

/-- A filter that counts every key. -/
structure Filter where
  capacity : Nat
  count : Nat

@[reducible] def packages : Packages where
  PrivateKey := UInt8
  PublicKey := UInt8
  public_key k := k
  public_bytes k := List.replicate 32 k
  from_public_bytes data := if data.length = 32 then data.head? else none
  exchange a b := some (List.replicate 32 (a * b))
  sha256 := digest
  hmac_sha256 key data := digest (key ++ data)
  chacha_encrypt := encrypt
  chacha_decrypt := decrypt
  pbkdf2 password salt := digest (password ++ salt)
  aesgcm_decrypt key nonce data := decrypt key nonce data []
  lz4_decompress _ := none
  BloomFilter := Filter
  bloom_make capacity := ⟨capacity, 0⟩
  bloom_capacity := Filter.capacity
  bloom_count := Filter.count
  bloom_add f _ := if f.capacity < f.count then none else some ⟨f.capacity, f.count + 1⟩
  JsonValue := Unit
  json_loads _ := none
  json_get _ _ := none
  json_str _ := none

/-- A key of the stand-in. -/
abbrev key (k : UInt8) : @Crypto.PrivateKey packages.toCrypto := k

/-- There are draws to number. -/
instance neZero_draws : NeZero 16 := ⟨by decide⟩

/-- The `k`-th draw: the clock shows `k` seconds. -/
def draw (k : Fin 16) : @Draw packages.toCrypto :=
  letI := packages
  { time_us := UInt64.ofNat (1000000 * k)
    entropy := ⟨fun n => List.replicate n (UInt8.ofNat k), fun _ => List.length_replicate⟩
    uuid := ⟨List.replicate 36 (hexDigit k), List.length_replicate, by
      intro c hc
      rw [List.eq_of_mem_replicate hc]
      clear hc
      revert k
      decide⟩
    generate := key (UInt8.ofNat k) }

theorem lawfulCrypto : @LawfulCrypto packages.toCrypto :=
  letI := packages
  { length_public_bytes := fun _ => List.length_replicate
    from_public_bytes_public_bytes := fun _ => rfl
    exchange_comm := fun (a b : UInt8) =>
      ⟨_, rfl, congrArg (fun k => some (List.replicate 32 k)) (UInt8.mul_comm b a)⟩
    chacha_decrypt_encrypt := decrypt_encrypt
    length_chacha_encrypt := fun _ _ _ _ => by
      show (_ ++ checksum _).length = _
      rw [List.length_append, length_checksum] }

theorem lawfulBloom : @LawfulBloom packages :=
  letI := packages
  { capacity_make := fun _ => rfl
    count_make := fun _ => rfl
    add_eq_none_iff := fun f _ => by
      show (if f.capacity < f.count then none else some _) = none ↔ f.capacity < f.count
      split <;> simp [*]
    capacity_add := fun {f g _} h => by
      change (if f.capacity < f.count then none else some _) = some g at h
      split at h
      · cases h
      · cases h; rfl
    count_add_le := fun {f g _} h => by
      change (if f.capacity < f.count then none else some _) = some g at h
      split at h
      · cases h
      · cases h; exact le_rfl }

end standIn

end bitchat
