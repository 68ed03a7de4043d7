import ChannelServer.ItemDrop
import ChannelServer.MitamaReunion
import ChannelServer.ZoneRequests
import ChannelServer.TradeFinish

/-! # Packets — the parsers' size checks, their little-endian reads, and dispatch

    Every `Parse` of the five opcodes first compares the payload's size with
    the opcode's fixed size and returns `false` on a mismatch; otherwise it
    reads its fields as little-endian two's complement integers and handles
    the request, at once or as queued work.

    * `parse` is the five size checks and reads; `parse_eq_none_iff` is its
      size check read back as one statement over the five opcodes.
    * `encode` is the client's side.  A well-formed request comes back from
      its encoding (`parse_encode`), and an accepted payload is the encoding of
      the well-formed request read from it (`encode_of_parse`): the parsers
      are a bijection between sized payloads and well-formed requests.
    * `receive` is a frame arriving from a client: a payload `Parse` rejects
      drops the connection (the packet manager's part, from the spec), any
      other runs the handler on exactly the request the client encoded
      (`receive_encode`). -/

namespace ChannelPackets

open ChannelObjects ChannelWorld

/-! ## Little-endian fields -/

/-- The unsigned value of a little-endian byte string. -/
def decodeLE : List UInt8 → Nat
  | [] => 0
  | b :: bs => b.toNat + 256 * decodeLE bs

/-- The low `k` bytes of `n`, least significant first. -/
def encodeLE : Nat → Nat → List UInt8
  | 0, _ => []
  | k + 1, n => UInt8.ofNat n :: encodeLE k (n / 256)

/-- The two's complement reading of a `width`-byte unsigned value. -/
def signed (width n : Nat) : Int := Int.bmod n (256 ^ width)

/-- A value that an `int8_t`, `int32_t` or `int64_t` of `width` bytes holds. -/
def Fits (width : Nat) (v : Int) : Prop := Int.bmod v (256 ^ width) = v

instance (width : Nat) (v : Int) : Decidable (Fits width v) := inferInstanceAs (Decidable (_ = _))

/-- `ReadOnlyPacket::ReadS8`, `ReadS32Little`, `ReadS64Little`: the field at
    the cursor and the bytes after it. -/
def readS (width : Nat) (p : List UInt8) : Int × List UInt8 :=
  (signed width (decodeLE (p.take width)), p.drop width)

/-- `Packet::WriteS8`, `WriteS32Little`, `WriteS64Little`. -/
def writeS (width : Nat) (v : Int) : List UInt8 := encodeLE width (v % (256 ^ width : Nat)).toNat

@[simp] theorem length_encodeLE (k n : Nat) : (encodeLE k n).length = k := by
  induction k generalizing n with
  | zero => rfl
  | succ k ih => simp [encodeLE, ih]

@[simp] theorem length_writeS (width : Nat) (v : Int) : (writeS width v).length = width :=
  length_encodeLE _ _

theorem decodeLE_encodeLE (k n : Nat) : decodeLE (encodeLE k n) = n % 256 ^ k := by
  induction k generalizing n with
  | zero => simp [encodeLE, decodeLE, Nat.mod_one]
  | succ k ih =>
    rw [encodeLE, decodeLE, ih, pow_succ', Nat.mod_mul]
    rfl

/-- A byte is the low byte of itself plus any multiple of 256. -/
theorem ofNat_toNat_add (b : UInt8) (d : Nat) : UInt8.ofNat (b.toNat + 256 * d) = b := by
  have hb : b.toNat < 256 := b.toNat_lt_size
  apply UInt8.eq_of_val_eq
  apply Fin.ext
  show (b.toNat + 256 * d) % 256 = b.toNat
  omega

theorem encodeLE_decodeLE (bs : List UInt8) : encodeLE bs.length (decodeLE bs) = bs := by
  induction bs with
  | nil => rfl
  | cons b bs ih =>
    have hb : b.toNat < 256 := b.toNat_lt_size
    have hdiv : (b.toNat + 256 * decodeLE bs) / 256 = decodeLE bs := by omega
    rw [List.length_cons, encodeLE, decodeLE, hdiv, ih, ofNat_toNat_add]

theorem decodeLE_lt (bs : List UInt8) : decodeLE bs < 256 ^ bs.length := by
  induction bs with
  | nil => simp [decodeLE]
  | cons b bs ih =>
    have hb : b.toNat < 256 := b.toNat_lt_size
    rw [decodeLE, List.length_cons, pow_succ']
    omega

theorem fits_signed (width n : Nat) : Fits width (signed width n) := Int.bmod_bmod

theorem fits_readS (width : Nat) (p : List UInt8) : Fits width (readS width p).1 :=
  fits_signed _ _

/-- Reading back a written field gives the value, when it fits. -/
theorem readS_writeS {width : Nat} {v : Int} (h : Fits width v) (rest : List UInt8) :
    readS width (writeS width v ++ rest) = (v, rest) := by
  have hpos : (0 : Int) < (256 ^ width : Nat) := by exact_mod_cast Nat.pow_pos (by decide)
  have hmod : (((v % (256 ^ width : Nat)).toNat : Nat) : Int) = v % (256 ^ width : Nat) :=
    Int.toNat_of_nonneg (Int.emod_nonneg _ hpos.ne')
  have hlt : (v % (256 ^ width : Nat)).toNat < 256 ^ width := by omega
  simp only [readS, writeS, List.take_left' (length_encodeLE _ _),
    List.drop_left' (length_encodeLE _ _), decodeLE_encodeLE, Nat.mod_eq_of_lt hlt, signed, hmod,
    Int.emod_bmod]
  exact Prod.ext h rfl

theorem readS_writeS_nil {width : Nat} {v : Int} (h : Fits width v) :
    readS width (writeS width v) = (v, []) := by
  simpa using readS_writeS h []

/-- Writing back a read field gives the bytes it was read from. -/
theorem writeS_readS (width : Nat) (p : List UInt8) (h : width ≤ p.length) :
    writeS width (readS width p).1 ++ (readS width p).2 = p := by
  have hlen : (p.take width).length = width := List.length_take_of_le h
  have hlt := decodeLE_lt (p.take width)
  rw [hlen] at hlt
  have hmod : (signed width (decodeLE (p.take width)) % (256 ^ width : Nat)).toNat =
      decodeLE (p.take width) := by
    rw [signed, Int.bmod_emod, ← Int.natCast_mod, Int.toNat_natCast, Nat.mod_eq_of_lt hlt]
  have hround := encodeLE_decodeLE (p.take width)
  rw [hlen] at hround
  simp only [readS, writeS, hmod, hround, List.take_append_drop]

/-! ## Requests -/

/-- The requests the five parsers read, with their fields. -/
inductive Request
  | itemDrop (itemID : Int)
  | mitamaReunion (mitamaID reunionIdx : Int)
  | plasmaStart (plasmaID pointID : Int)
  | objectInteraction (entityID : Int)
  | tradeFinish
  deriving DecidableEq, Repr

namespace Request

/-- The opcode a request arrives under. -/
def code : Request → ClientCode
  | .itemDrop _ => .itemDrop
  | .mitamaReunion _ _ => .mitamaReunion
  | .plasmaStart _ _ => .plasmaStart
  | .objectInteraction _ => .objectInteraction
  | .tradeFinish => .tradeFinish

/-- Every field holds a value of its wire width: `int64_t` handles, an
    `int8_t` reunion index and point id, `int32_t` entity ids. -/
def WellFormed : Request → Prop
  | .itemDrop itemID => Fits 8 itemID
  | .mitamaReunion mitamaID reunionIdx => Fits 8 mitamaID ∧ Fits 1 reunionIdx
  | .plasmaStart plasmaID pointID => Fits 4 plasmaID ∧ Fits 1 pointID
  | .objectInteraction entityID => Fits 4 entityID
  | .tradeFinish => True

instance : DecidablePred WellFormed := fun r => by
  cases r <;> unfold WellFormed <;> infer_instance

end Request

/-- The payload size each `Parse` requires. -/
def payloadSize : ClientCode → Nat
  | .itemDrop => 8
  | .mitamaReunion => 9
  | .plasmaStart => 5
  | .objectInteraction => 4
  | .tradeFinish => 0

/-- The five `Parse` functions up to the handler: `none` where `Parse`
    returns `false` on the payload's size, else the fields read in order,
    each read starting where the last one stopped. -/
def parse : ClientCode → List UInt8 → Option Request
  | .itemDrop, p =>
    if p.length ≠ 8 then none
    else
      let itemID := readS 8 p
      some (.itemDrop itemID.1)
  | .mitamaReunion, p =>
    if p.length ≠ 9 then none
    else
      let mitamaID := readS 8 p
      let reunionIdx := readS 1 mitamaID.2
      some (.mitamaReunion mitamaID.1 reunionIdx.1)
  | .plasmaStart, p =>
    if p.length ≠ 5 then none
    else
      let plasmaID := readS 4 p
      let pointID := readS 1 plasmaID.2
      some (.plasmaStart plasmaID.1 pointID.1)
  | .objectInteraction, p =>
    if p.length ≠ 4 then none
    else
      let entityID := readS 4 p
      some (.objectInteraction entityID.1)
  | .tradeFinish, p => if p.length ≠ 0 then none else some .tradeFinish

/-- The client's encoding of a request: its fields in order, each at its
    width. -/
def encode : Request → List UInt8
  | .itemDrop itemID => writeS 8 itemID
  | .mitamaReunion mitamaID reunionIdx => writeS 8 mitamaID ++ writeS 1 reunionIdx
  | .plasmaStart plasmaID pointID => writeS 4 plasmaID ++ writeS 1 pointID
  | .objectInteraction entityID => writeS 4 entityID
  | .tradeFinish => []

@[simp] theorem length_encode (r : Request) : (encode r).length = payloadSize r.code := by
  cases r <;> simp [encode, payloadSize, Request.code]

/-- `Parse` returns `false` EXACTLY when the payload's size is not the
    opcode's. -/
theorem parse_eq_none_iff (code : ClientCode) (p : List UInt8) :
    parse code p = none ↔ p.length ≠ payloadSize code := by
  cases code <;> rw [parse, payloadSize] <;> split_ifs with h <;> simp [h]

/-- A well-formed request is read back from its encoding. -/
theorem parse_encode {r : Request} (h : r.WellFormed) : parse r.code (encode r) = some r := by
  cases r with
  | itemDrop itemID => rw [Request.code, parse, if_neg (by simp [encode]), encode, readS_writeS_nil h]
  | mitamaReunion mitamaID reunionIdx =>
    rw [Request.code, parse, if_neg (by simp [encode]), encode, readS_writeS h.1]
    simp only [readS_writeS_nil h.2]
  | plasmaStart plasmaID pointID =>
    rw [Request.code, parse, if_neg (by simp [encode]), encode, readS_writeS h.1]
    simp only [readS_writeS_nil h.2]
  | objectInteraction entityID =>
    rw [Request.code, parse, if_neg (by simp [encode]), encode, readS_writeS_nil h]
  | tradeFinish => rfl

/-- A payload that is exactly one field is the field's encoding. -/
theorem writeS_readS_whole (width : Nat) (p : List UInt8) (h : p.length = width) :
    writeS width (readS width p).1 = p := by
  have := writeS_readS width p h.ge
  rwa [show (readS width p).2 = [] by simp [readS, h], List.append_nil] at this

/-- What `Parse` accepts is the encoding of a well-formed request under the
    same opcode. -/
theorem encode_of_parse {code : ClientCode} {p : List UInt8} {r : Request}
    (h : parse code p = some r) : encode r = p ∧ r.code = code ∧ r.WellFormed := by
  cases code <;> rw [parse] at h <;> split_ifs at h with hp <;>
    simp only [Option.some.injEq] at h <;> subst h
  · exact ⟨writeS_readS_whole 8 p (by omega), rfl, fits_readS _ _⟩
  · refine ⟨?_, rfl, fits_readS _ _, fits_readS _ _⟩
    rw [encode, writeS_readS_whole 1 (readS 8 p).2 (by simp [readS]; omega),
      writeS_readS 8 p (by omega)]
  · refine ⟨?_, rfl, fits_readS _ _, fits_readS _ _⟩
    rw [encode, writeS_readS_whole 1 (readS 4 p).2 (by simp [readS]; omega),
      writeS_readS 4 p (by omega)]
  · exact ⟨writeS_readS_whole 4 p (by omega), rfl, fits_readS _ _⟩
  · exact ⟨(List.length_eq_zero.mp (by omega)).symm, rfl, trivial⟩

/-- The parsers and the encoding are INVERSE: `Parse` accepts a payload
    under an opcode and reads the request `r` exactly when `r` is a
    well-formed request of that opcode whose encoding is the payload. -/
theorem parse_eq_some_iff {code : ClientCode} {p : List UInt8} {r : Request} :
    parse code p = some r ↔ r.WellFormed ∧ r.code = code ∧ encode r = p := by
  constructor
  · intro h
    obtain ⟨henc, hcode, hwf⟩ := encode_of_parse h
    exact ⟨hwf, hcode, henc⟩
  · rintro ⟨hwf, rfl, rfl⟩
    exact parse_encode hwf

/-- The reunion index byte `0xFF` is read as `-1`. -/
example : parse .mitamaReunion [7, 0, 0, 0, 0, 0, 0, 0, 255] = some (.mitamaReunion 7 (-1)) := by
  decide

/-! ## Dispatch -/

/-- The managers and constants the handlers consult. -/
structure Channel where
  defs : ItemDrop.ItemDefinitions
  mgr : MitamaReunion.Managers
  zone : ZoneRequests.ZoneManagers
  maxInteractDistance : Nat
  db : ChangeSet → Bool

/-- A read request handled for the client whose character has entity id
    `c`.  `ItemDrop` and `MitamaReunion` queue their handler and the others
    run it in the parser; here a request runs when it is handled. -/
def handle (ch : Channel) (w : World) (c : EntityId) : Request → Except ChannelTrade.Fault Exec
  | .itemDrop itemID => .ok (ItemDrop.dropItem ch.defs w c itemID)
  | .mitamaReunion mitamaID reunionIdx =>
    .ok (MitamaReunion.handleMitamaReunion ch.mgr w c mitamaID reunionIdx)
  | .plasmaStart plasmaID pointID => .ok (ZoneRequests.plasmaStart ch.zone w c plasmaID pointID)
  | .objectInteraction entityID =>
    .ok (ZoneRequests.objectInteraction ch.zone ch.maxInteractDistance w c entityID)
  | .tradeFinish => ChannelTrade.tradeFinish ch.db w c

/-- Modelled from the spec: the packet manager is not in the repository.  A
    payload `Parse` rejects is a protocol violation and the connection is
    dropped; any other is handled. -/
def receive (ch : Channel) (w : World) (c : EntityId) (code : ClientCode) (p : List UInt8) :
    Except ChannelTrade.Fault Exec :=
  match parse code p with
  | none => .ok ((⟨w, []⟩ : Exec).kill c)
  | some r => handle ch w c r

/-- The server handles EXACTLY the request the client encoded. -/
theorem receive_encode (ch : Channel) (w : World) (c : EntityId) {r : Request} (h : r.WellFormed) :
    receive ch w c r.code (encode r) = handle ch w c r := by
  rw [receive, parse_encode h]

end ChannelPackets
