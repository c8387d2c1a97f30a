import HotaruMqtt.Codec.Reconstruct

/-!
# Reserved bits and stray bytes

The frames the decoder takes although the encoder would not have written them.
Only the acknowledgements and PUBLISH have their low nibble checked; a CONNECT
may set its reserved flag, set will bits without a will, or carry bytes after
its last field; a CONNACK may set any flag bit and be of any length.  The
frames without such slack are described on their bytes.
-/

namespace HotaruMqtt.Codec

open Exec Exec.Outcome

/-! ## Strict frames -/

/-- The end of the last field of a CONNECT body, found by walking over the
length prefixes that its flag byte announces. -/
def connectEnd (body : Bytes) : Nat :=
  let flags := body.getD 7 0
  let cursor := fieldEnd body 10
  let cursor :=
    if containsFlag flags ConnectFlags.willFlag then
      fieldEnd body (fieldEnd body cursor)
    else cursor
  let cursor := if containsFlag flags ConnectFlags.username then fieldEnd body cursor else cursor
  if containsFlag flags ConnectFlags.password then fieldEnd body cursor else cursor

/-- No reserved flag, no will bits without a will, nothing after the last field. -/
def ConnectStrict (body : Bytes) : Prop :=
  body.getD 7 0 &&& ConnectFlags.reserved = 0 ∧
    (containsFlag (body.getD 7 0) ConnectFlags.willFlag = false →
      body.getD 7 0 &&& (ConnectFlags.willQoSMask ||| ConnectFlags.willRetain) = 0) ∧
    connectEnd body = body.length

/-- One flag bit, one code, and nothing else. -/
def ConnackStrict (body : Bytes) : Prop :=
  body.length = 2 ∧ body.getD 0 0 ≤ 1

/-- The low nibble MQTT fixes for each type other than PUBLISH. -/
def reservedNibble : PacketType → UInt8
  | .pubrel | .subscribe | .unsubscribe => 0x02
  | _ => 0x00

/-- A frame whose reserved bits are as the format fixes them and that has no
stray bytes, by its first byte and body. -/
def StrictFrame (first : UInt8) (body : Bytes) : Prop :=
  match PacketType.tryFrom (first >>> 4) with
  | some .publish => ¬ ZeroIdPublish first body
  | some .connect => first &&& 0x0F = 0x00 ∧ ConnectStrict body
  | some .connack => first &&& 0x0F = 0x00 ∧ ConnackStrict body
  | some packetType => first &&& 0x0F = reservedNibble packetType
  | none => False

/-! ## CONNECT flags -/

/-- The flag byte with the bits cleared that the encoder never sets. -/
def clearedFlags (flags : UInt8) : UInt8 :=
  if containsFlag flags ConnectFlags.willFlag then flags &&& 0xFE else flags &&& 0xC6

/-- The byte written for a CONNECT is the byte it was read from, cleared. -/
theorem connectFlags_eq_clearedFlags {flags : UInt8} {conn : ConnectPacket}
    (describes : FlagsDescribe flags conn) : connectFlags conn = clearedFlags flags := by
  obtain ⟨clean, -, willFlag, willMatches, username, -, password, -⟩ := describes
  rcases conn with ⟨clientId, cleanSession, keepAlive, name, word, will⟩
  dsimp only at clean willFlag willMatches username password
  simp only [connectFlags, ← clean, ← username, ← password, clearedFlags, willFlag]
  cases will with
  | none =>
      rw [Option.isSome_none] at willFlag
      clear willMatches clean username password
      revert flags
      decide +kernel
  | some will =>
      obtain ⟨-, -, qos, retain⟩ := willMatches will rfl
      rw [Option.isSome_some] at willFlag
      simp only [← qos, ← retain, Option.isSome_some]
      clear willMatches clean username password qos retain
      revert flags
      decide +kernel

theorem eq_clearedFlags_iff (flags : UInt8) :
    flags = clearedFlags flags ↔
      flags &&& ConnectFlags.reserved = 0 ∧
        (containsFlag flags ConnectFlags.willFlag = false →
          flags &&& (ConnectFlags.willQoSMask ||| ConnectFlags.willRetain) = 0) := by
  revert flags
  decide +kernel

/-! ## CONNECT fields -/

/-- Walking over an optional field. -/
theorem fieldEnd_elim {α : Type} {body rest : Bytes} {offset : Nat} {value : Option α}
    {content : α → Bytes} (fits : ∀ present ∈ value, FitsField (content present))
    (found : body.drop offset =
      value.elim [] (fun present => lengthPrefixed (content present)) ++ rest) :
    (if value.isSome then fieldEnd body offset else offset) =
        offset + (value.elim [] fun present => lengthPrefixed (content present)).length ∧
      body.drop (offset +
        (value.elim [] fun present => lengthPrefixed (content present)).length) = rest := by
  have behind : body.drop (offset +
      (value.elim [] fun present => lengthPrefixed (content present)).length) = rest := by
    rw [← List.drop_drop, found, List.drop_left]
  refine ⟨?_, behind⟩
  cases value with
  | none => rfl
  | some present =>
      exact fieldEnd_of_drop_eq (fits present rfl) found

theorem connectEnd_eq {flags : UInt8} {conn : ConnectPacket}
    (describes : FlagsDescribe flags conn) (stray : Bytes) :
    connectEnd (protocolHeader ++
        flags :: (toBeBytes conn.keepAlive ++ (connectFields conn ++ stray))) =
      10 + (connectFields conn).length := by
  set body := protocolHeader ++
    flags :: (toBeBytes conn.keepAlive ++ (connectFields conn ++ stray)) with bodyEq
  have flagsAt : body.getD 7 0 = flags := by
    rw [bodyEq]
    rfl
  have fields : body.drop 10 = connectFields conn ++ stray := by
    rw [bodyEq]
    rfl
  simp only [connectFields, List.append_assoc] at fields
  have afterId : fieldEnd body 10 = 10 + (topicBytes conn.clientId).length :=
    fieldEnd_of_drop_eq describes.clientIdFits fields
  have willFound : body.drop (10 + (topicBytes conn.clientId).length) =
      conn.will.elim [] willBytes ++ (conn.username.elim [] topicBytes ++
        (conn.password.elim [] lengthPrefixed ++ stray)) := by
    rw [← List.drop_drop, fields, List.drop_left]
  -- A will is two fields in a row.
  have afterWill : (if conn.will.isSome then
        fieldEnd body (fieldEnd body (10 + (topicBytes conn.clientId).length))
      else 10 + (topicBytes conn.clientId).length) =
        10 + (topicBytes conn.clientId).length + (conn.will.elim [] willBytes).length := by
    cases present : conn.will with
    | none => rfl
    | some will =>
        obtain ⟨topicFits, payloadFits, -, -⟩ := describes.will will present
        rw [present, Option.elim_some, willBytes, List.append_assoc] at willFound
        have payloadFound : body.drop (10 + (topicBytes conn.clientId).length +
            (topicBytes will.topic).length) = lengthPrefixed will.payload ++
              (conn.username.elim [] topicBytes ++
                (conn.password.elim [] lengthPrefixed ++ stray)) := by
          rw [← List.drop_drop, willFound, List.drop_left]
        rw [Option.isSome_some, if_pos rfl, fieldEnd_of_drop_eq topicFits willFound]
        change fieldEnd body (_ + (topicBytes will.topic).length) = _
        rw [fieldEnd_of_drop_eq payloadFits payloadFound, Option.elim_some, willBytes,
          List.length_append]
        omega
  have nameFound : body.drop (10 + (topicBytes conn.clientId).length +
      (conn.will.elim [] willBytes).length) =
        conn.username.elim [] topicBytes ++
          (conn.password.elim [] lengthPrefixed ++ stray) := by
    rw [← List.drop_drop, willFound, List.drop_left]
  obtain ⟨afterName, wordFound⟩ := fieldEnd_elim describes.usernameFits nameFound
  obtain ⟨afterWord, -⟩ := fieldEnd_elim describes.passwordFits wordFound
  simp only [connectEnd, flagsAt, describes.willFlag, describes.usernameFlag,
    describes.passwordFlag, afterId, afterWill]
  rw [afterName, afterWord]
  simp only [connectFields, List.length_append]
  change _ + (conn.username.elim [] topicBytes).length +
    (conn.password.elim [] lengthPrefixed).length = _
  omega

theorem connectStrict_iff {flags : UInt8} {conn : ConnectPacket}
    (describes : FlagsDescribe flags conn) (stray : Bytes) :
    ConnectStrict (protocolHeader ++
        flags :: (toBeBytes conn.keepAlive ++ (connectFields conn ++ stray))) ↔
      connectBody conn = protocolHeader ++
        flags :: (toBeBytes conn.keepAlive ++ (connectFields conn ++ stray)) := by
  have flagsAt : (protocolHeader ++ flags ::
      (toBeBytes conn.keepAlive ++ (connectFields conn ++ stray))).getD 7 0 = flags := rfl
  have size : (protocolHeader ++ flags ::
      (toBeBytes conn.keepAlive ++ (connectFields conn ++ stray))).length =
        10 + (connectFields conn).length + stray.length := by
    simp only [protocolHeader, List.length_append, List.length_cons, length_toBeBytes,
      List.length_nil]
    omega
  rw [ConnectStrict, flagsAt, connectEnd_eq describes, size, ← and_assoc,
    ← eq_clearedFlags_iff, ← connectFlags_eq_clearedFlags describes, connectBody_eq]
  constructor
  · rintro ⟨sameFlags, sameEnd⟩
    have noStray : stray = [] := List.length_eq_zero_iff.mp (by omega)
    rw [← sameFlags, noStray, List.append_nil]
  · intro same
    have tails := List.append_cancel_left same
    simp only [List.cons.injEq] at tails
    obtain ⟨sameFlags, sameFields⟩ := tails
    have lengths := congrArg List.length (List.append_cancel_left sameFields)
    rw [List.length_append] at lengths
    exact ⟨sameFlags.symm, by omega⟩

theorem connackStrict_iff {ack : ConnackPacket} {flags : UInt8} {stray : Bytes}
    (present : ack.sessionPresent = decide (flags &&& 0x01 ≠ 0)) :
    ConnackStrict (flags :: ack.returnCode.asU8 :: stray) ↔
      wireBody (.connack ack) = flags :: ack.returnCode.asU8 :: stray := by
  have flag : flags ≤ 1 ↔ (if ack.sessionPresent then 0x01 else 0x00) = flags := by
    rw [present]
    clear present
    revert flags
    decide +kernel
  simp only [ConnackStrict, wireBody, List.getD_cons_zero, List.length_cons, List.cons.injEq,
    flag, true_and]
  constructor
  · rintro ⟨two, same⟩
    exact ⟨same, (List.length_eq_zero_iff.mp (by omega)).symm⟩
  · rintro ⟨same, rfl⟩
    exact ⟨rfl, same⟩

/-! ## The encoder's bytes -/

/-- The encoder writes the packet with the frame's first byte and, for CONNECT
and CONNACK, with the frame's body. -/
def WrittenAlike (frame : Frame) (packet : Packet) : Prop :=
  ∃ written : Frame, encodePacket packet = ok written.bytes ∧
    written.first = frame.first ∧ (¬ BodyExact packet → written.body = frame.body)

theorem writtenAlike_iff {frame : Frame} {packet : Packet}
    (kind : frame.first >>> 4 = (packetTypeOf packet).asU8)
    (accepted : Accepts frame.first frame.body packet) :
    WrittenAlike frame packet ↔
      IdLegal packet ∧ frame.first &&& 0x0F = lowNibble packet ∧
        (¬ BodyExact packet → wireBody packet = frame.body) := by
  have bounded := (length_wireBody_le_of_accepts accepted).trans frame.body_bounded
  have sameFirst : frame.first = firstByte packet ↔
      frame.first &&& 0x0F = lowNibble packet := by
    rw [eq_firstByte_iff]
    exact and_iff_right kind
  rw [← encodable_iff_of_accepts accepted, ← sameFirst]
  constructor
  · rintro ⟨written, encoded, first, body⟩
    obtain ⟨encodable, bytes⟩ := encodePacket_eq_ok_iff.mp encoded
    have same : written.bytes ++ [] =
        (Frame.encoded (firstByte packet) (wireBody packet) bounded).bytes ++ [] := by
      rw [bytes, Frame.bytes_encoded]
    obtain ⟨rfl, -⟩ := Frame.eq_of_append_eq same
    exact ⟨encodable, first.symm, body⟩
  · rintro ⟨encodable, first, body⟩
    exact ⟨Frame.encoded (firstByte packet) (wireBody packet) bounded,
      encodePacket_eq_ok_iff.mpr ⟨encodable, rfl⟩, first.symm, body⟩

/-- An accepted frame is one the encoder writes for its packet, as far as the
first byte and the bodies of CONNECT and CONNACK go, exactly when its bytes are
strict. -/
theorem writtenAlike_iff_strictFrame (maxSize : Nat) (frame : Frame) (rest : Bytes)
    (packet : Packet)
    (decoded : decodePacketFromBytes maxSize (frame.bytes ++ rest) =
      (ok (some packet), rest)) :
    WrittenAlike frame packet ↔ StrictFrame frame.first frame.body := by
  obtain ⟨-, kind, accepted⟩ := accepts_of_decode decoded
  have idLegal := idLegal_iff_of_accepts kind accepted []
  rw [List.append_nil] at idLegal
  rw [writtenAlike_iff kind accepted, StrictFrame, PacketType.tryFrom_eq_some_iff.mpr kind]
  cases packet with
  | publish publish =>
      simp only [packetTypeOf, ← idLegal, BodyExact, not_true_eq_false, false_implies, and_true]
      exact and_iff_left accepted.1
  | connect conn =>
      obtain ⟨flags, stray, bodyEq, describes⟩ := accepted
      simp only [packetTypeOf, IdLegal, lowNibble, BodyExact, not_false_eq_true, forall_const,
        true_and, wireBody, bodyEq, connectStrict_iff describes]
  | connack ack =>
      obtain ⟨flags, stray, bodyEq, present⟩ := accepted
      simp only [packetTypeOf, IdLegal, lowNibble, BodyExact, not_false_eq_true, forall_const,
        true_and, bodyEq, connackStrict_iff present]
  | _ =>
      simp [packetTypeOf, IdLegal, lowNibble, BodyExact, reservedNibble]

/-- A strict SUBSCRIBE to the topic `a`. -/
theorem writtenAlike_iff_strictFrame_subscribe :
    WrittenAlike (Frame.encoded 0x82 [0x00, 0x01, 0x00, 0x01, 0x61, 0x00] (by decide))
        (.subscribe ⟨1, [⟨"a", .atMostOnce⟩]⟩) ↔
      StrictFrame 0x82 [0x00, 0x01, 0x00, 0x01, 0x61, 0x00] :=
  writtenAlike_iff_strictFrame 6
    (Frame.encoded 0x82 [0x00, 0x01, 0x00, 0x01, 0x61, 0x00] (by decide)) [] _ (by decide)

/-- A PINGREQ with a reserved bit set, and a CONNACK with three bytes and an
unused flag bit, are accepted although other bytes are written for them. -/
theorem decode_accepts_reserved_bits_and_stray_bytes :
    decodePacketFromBytes 0 [0xC1, 0x00] = (ok (some .pingreq), []) ∧
      encodePacket .pingreq = ok [0xC0, 0x00] ∧
      decodePacketFromBytes 3 [0x20, 0x03, 0x80, 0x00, 0xFF] =
        (ok (some (.connack ⟨false, .accepted⟩)), []) ∧
      encodePacket (.connack ⟨false, .accepted⟩) = ok [0x20, 0x02, 0x00, 0x00] := by
  decide

end HotaruMqtt.Codec
