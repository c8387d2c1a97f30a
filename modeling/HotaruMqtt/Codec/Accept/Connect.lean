import HotaruMqtt.Codec.Accept.Publish

/-!
# What the CONNECT and CONNACK parsers accept

Neither parser is exact.  A CONNECT may end with bytes after its last field,
and of its flag byte only the bits that select fields are looked at; a CONNACK
may be longer than two bytes, and only one bit of its flag byte is looked at.
The characterisations below name these freedoms.
-/

namespace HotaruMqtt.Codec

open Exec Exec.Outcome

/-! ## CONNACK -/

theorem parseConnack_eq_ok_iff {body : Bytes} {packet : Packet} :
    parseConnack body = ok packet ↔
      ∃ (ack : ConnackPacket) (flags : UInt8) (stray : Bytes), packet = .connack ack ∧
        body = flags :: ack.returnCode.asU8 :: stray ∧
        ack.sessionPresent = decide (flags &&& 0x01 ≠ 0) := by
  constructor
  · intro parsed
    match body with
    | [] => contradiction
    | [_] => contradiction
    | flags :: code :: stray =>
        have long : ¬ (flags :: code :: stray).length < 2 := by simp
        rw [parseConnack, if_neg long, Slice.index_eq_ok_iff.mpr rfl, ok_bind,
          Slice.index_eq_ok_iff.mpr rfl, ok_bind] at parsed
        obtain ⟨answer, codeRead, packetEq⟩ := bind_eq_ok_iff.mp parsed
        rw [okOr_eq_ok_iff, ConnackReturnCode.tryFrom_eq_some_iff] at codeRead
        cases packetEq
        subst codeRead
        exact ⟨_, flags, stray, rfl, rfl, rfl⟩
  · rintro ⟨⟨present, answer⟩, flags, stray, rfl, rfl, rfl⟩
    have long : ¬ (flags :: answer.asU8 :: stray).length < 2 := by simp
    rw [parseConnack, if_neg long, Slice.index_eq_ok_iff.mpr rfl, ok_bind,
      Slice.index_eq_ok_iff.mpr rfl, ok_bind,
      ConnackReturnCode.tryFrom_eq_some_iff.mpr rfl]
    rfl

/-! ## Reading one field after another -/

/-- A reader over a body that accepts exactly the bytes of what it returns. -/
def ReadsAs {α : Type} (body : Bytes) (read : Nat → Outcome MqttError (α × Nat))
    (bytes : α → Bytes) (fits : α → Prop) : Prop :=
  ∀ cursor value after, read cursor = ok (value, after) ↔
    fits value ∧ after = cursor + (bytes value).length ∧
      body.drop cursor = bytes value ++ body.drop after

/-- Where the bytes of a value stand, the value is read and they are passed. -/
theorem ReadsAs.of_drop_eq {α : Type} {body rest : Bytes}
    {read : Nat → Outcome MqttError (α × Nat)} {bytes : α → Bytes} {fits : α → Prop}
    (reads : ReadsAs body read bytes fits) {cursor : Nat} {value : α}
    (valueFits : fits value) (found : body.drop cursor = bytes value ++ rest) :
    read cursor = ok (value, cursor + (bytes value).length) ∧
      body.drop (cursor + (bytes value).length) = rest := by
  have behind : body.drop (cursor + (bytes value).length) = rest := by
    rw [← List.drop_drop, found, List.drop_left]
  refine ⟨(reads _ _ _).mpr ⟨valueFits, rfl, ?_⟩, behind⟩
  rw [behind, found]

theorem readsAs_readArcStr (body : Bytes) :
    ReadsAs body (readArcStr body) topicBytes fun text => FitsField (asBytes text) := by
  intro cursor text after
  rw [readArcStr_eq_ok_iff, topicBytes, length_lengthPrefixed, Nat.add_assoc]
  rfl

theorem readsAs_readBytes (body : Bytes) :
    ReadsAs body (readBytes body) lengthPrefixed FitsField := by
  intro cursor bytes after
  rw [readBytes_eq_ok_iff, length_lengthPrefixed, Nat.add_assoc]
  rfl

/-- An optional field is there exactly when its flag is. -/
theorem ReadsAs.parseFlagged {α : Type} {body : Bytes}
    {read : Nat → Outcome MqttError (α × Nat)} {bytes : α → Bytes} {fits : α → Prop}
    (reads : ReadsAs body read bytes fits) (flags flag : UInt8) :
    ReadsAs body (parseFlagged flags flag read) (fun value => value.elim [] bytes)
      fun value =>
        containsFlag (ConnectFlags.fromBitsTruncate flags) flag = value.isSome ∧
          ∀ present ∈ value, fits present := by
  intro cursor value after
  unfold Codec.parseFlagged
  split
  · rename_i set
    rw [bind_eq_ok_iff, set]
    constructor
    · rintro ⟨⟨present, next⟩, presentRead, last⟩
      obtain ⟨presentFits, rfl, found⟩ := (reads _ _ _).mp presentRead
      cases last
      exact ⟨⟨rfl, by simpa using presentFits⟩, rfl, found⟩
    · rintro ⟨⟨isPresent, presentFits⟩, rfl, found⟩
      obtain ⟨present, rfl⟩ := Option.isSome_iff_exists.mp isPresent.symm
      exact ⟨_, (reads _ _ _).mpr ⟨presentFits present rfl, rfl, found⟩, rfl⟩
  · rename_i unset
    rw [Bool.not_eq_true] at unset
    rw [unset]
    simp only [ok.injEq, Prod.mk.injEq]
    constructor
    · rintro ⟨rfl, rfl⟩
      simp
    · rintro ⟨⟨absent, -⟩, rfl, -⟩
      obtain rfl := Option.isNone_iff_eq_none.mp (Option.isSome_eq_false_iff.mp absent.symm)
      exact ⟨rfl, rfl⟩

/-! ## The will -/

/-- Every bit of the flag byte has a name, so nothing is truncated. -/
@[simp]
theorem fromBitsTruncate_eq (flags : UInt8) :
    ConnectFlags.fromBitsTruncate flags = flags := by
  revert flags
  decide +kernel

/-- The fields of a will. -/
def willBytes (will : WillPacket) : Bytes :=
  topicBytes will.topic ++ lengthPrefixed will.payload

/-- A will whose fields fit and whose QoS and retain bit are those of the flags. -/
structure WillMatches (flags : UInt8) (will : WillPacket) : Prop where
  topicFits : FitsField (asBytes will.topic)
  payloadFits : FitsField will.payload
  qos : (flags &&& ConnectFlags.willQoSMask) >>> 3 = will.qos.asU8
  retain : containsFlag flags ConnectFlags.willRetain = will.retain

theorem readsAs_parseWill (body : Bytes) (flags : UInt8) :
    ReadsAs body (parseWill body flags) (fun will => will.elim [] willBytes)
      fun will =>
        containsFlag flags ConnectFlags.willFlag = will.isSome ∧
          ∀ present ∈ will, WillMatches flags present := by
  intro cursor will after
  simp only [parseWill, fromBitsTruncate_eq]
  split
  · rename_i set
    rw [set]
    constructor
    · intro read
      obtain ⟨⟨topic, afterTopic⟩, topicRead, rest⟩ := bind_eq_ok_iff.mp read
      obtain ⟨topicFits, rfl, topicFound⟩ := (readsAs_readArcStr body _ _ _).mp topicRead
      obtain ⟨⟨payload, afterPayload⟩, payloadRead, rest⟩ := bind_eq_ok_iff.mp rest
      obtain ⟨payloadFits, rfl, payloadFound⟩ :=
        (readsAs_readBytes body _ _ _).mp payloadRead
      obtain ⟨qos, qosRead, last⟩ := bind_eq_ok_iff.mp rest
      rw [okOr_eq_ok_iff, QoS.fromU8_eq_some_iff] at qosRead
      cases last
      refine ⟨⟨rfl, ?_⟩, ?_, ?_⟩
      · rintro present ⟨⟩
        exact ⟨topicFits, payloadFits, qosRead, rfl⟩
      · simp only [Option.elim_some, willBytes, List.length_append]
        omega
      · rw [topicFound, payloadFound]
        simp [willBytes]
    · rintro ⟨⟨isPresent, present⟩, rfl, found⟩
      obtain ⟨⟨topic, payload, qos, retain⟩, rfl⟩ :=
        Option.isSome_iff_exists.mp isPresent.symm
      obtain ⟨topicFits, payloadFits, qosRead, retainRead⟩ := present _ rfl
      simp only [Option.elim_some, willBytes, List.append_assoc] at found
      obtain ⟨topicRead, payloadFound⟩ :=
        (readsAs_readArcStr body).of_drop_eq topicFits found
      obtain ⟨payloadRead, -⟩ :=
        (readsAs_readBytes body).of_drop_eq payloadFits payloadFound
      rw [topicRead, ok_bind]
      dsimp only
      rw [payloadRead, ok_bind]
      dsimp only at qosRead retainRead ⊢
      rw [qosRead, QoS.fromU8_eq_some_iff.mpr rfl, okOr_some, ok_bind, retainRead]
      simp only [Option.elim_some, willBytes, List.length_append, Nat.add_assoc]
  · rename_i unset
    rw [Bool.not_eq_true] at unset
    rw [unset]
    simp only [ok.injEq, Prod.mk.injEq]
    constructor
    · rintro ⟨rfl, rfl⟩
      simp
    · rintro ⟨⟨absent, -⟩, rfl, -⟩
      obtain rfl := Option.isNone_iff_eq_none.mp (Option.isSome_eq_false_iff.mp absent.symm)
      exact ⟨rfl, rfl⟩

/-! ## CONNECT -/

/-- The length-prefixed fields of a CONNECT in their order. -/
def connectFields (conn : ConnectPacket) : Bytes :=
  topicBytes conn.clientId ++
    (conn.will.elim [] willBytes ++
      (conn.username.elim [] topicBytes ++ conn.password.elim [] lengthPrefixed))

theorem writeConnectFields_eq (out : Bytes) (conn : ConnectPacket) :
    writeConnectFields out conn = out ++ connectFields conn := by
  rcases conn with ⟨clientId, clean, keepAlive, username, password, will⟩
  cases will <;> cases username <;> cases password <;>
    simp [writeConnectFields, connectFields, writeArcStr, writeBytes, willBytes, topicBytes]

/-- A flag byte and a CONNECT that it describes, whose fields fit. -/
structure FlagsDescribe (flags : UInt8) (conn : ConnectPacket) : Prop where
  cleanSession : containsFlag flags ConnectFlags.cleanSession = conn.cleanSession
  clientIdFits : FitsField (asBytes conn.clientId)
  willFlag : containsFlag flags ConnectFlags.willFlag = conn.will.isSome
  will : ∀ will ∈ conn.will, WillMatches flags will
  usernameFlag : containsFlag flags ConnectFlags.username = conn.username.isSome
  usernameFits : ∀ username ∈ conn.username, FitsField (asBytes username)
  passwordFlag : containsFlag flags ConnectFlags.password = conn.password.isSome
  passwordFits : ∀ password ∈ conn.password, FitsField password

theorem parseConnectFields_eq_ok_iff {body : Bytes} {flags : UInt8} {keepAlive : UInt16}
    {packet : Packet} :
    parseConnectFields body flags keepAlive = ok packet ↔
      ∃ (conn : ConnectPacket) (stray : Bytes), packet = .connect conn ∧
        conn.keepAlive = keepAlive ∧ body.drop 10 = connectFields conn ++ stray ∧
        FlagsDescribe flags conn := by
  have readsUsername := (readsAs_readArcStr body).parseFlagged flags ConnectFlags.username
  have readsPassword := (readsAs_readBytes body).parseFlagged flags ConnectFlags.password
  simp only [fromBitsTruncate_eq] at readsUsername readsPassword
  constructor
  · intro parsed
    obtain ⟨⟨clientId, afterId⟩, idRead, rest⟩ := bind_eq_ok_iff.mp parsed
    obtain ⟨idFits, -, idFound⟩ := (readsAs_readArcStr body _ _ _).mp idRead
    obtain ⟨⟨will, afterWill⟩, willRead, rest⟩ := bind_eq_ok_iff.mp rest
    obtain ⟨⟨willFlag, willFits⟩, -, willFound⟩ := (readsAs_parseWill body flags _ _ _).mp willRead
    obtain ⟨⟨username, afterName⟩, nameRead, rest⟩ := bind_eq_ok_iff.mp rest
    obtain ⟨⟨nameFlag, nameFits⟩, -, nameFound⟩ := (readsUsername _ _ _).mp nameRead
    obtain ⟨⟨password, afterWord⟩, wordRead, packetEq⟩ := bind_eq_ok_iff.mp rest
    obtain ⟨⟨wordFlag, wordFits⟩, -, wordFound⟩ := (readsPassword _ _ _).mp wordRead
    cases packetEq
    refine ⟨_, body.drop afterWord, rfl, rfl, ?_, ?_⟩
    · rw [idFound, willFound, nameFound, wordFound]
      simp only [connectFields, List.append_assoc]
    · exact ⟨by rw [fromBitsTruncate_eq], idFits, willFlag, willFits, nameFlag, nameFits,
        wordFlag, wordFits⟩
  · rintro ⟨⟨clientId, clean, keep, username, password, will⟩, stray, rfl, rfl, found, describes⟩
    simp only [connectFields, List.append_assoc] at found
    obtain ⟨idRead, found⟩ :=
      (readsAs_readArcStr body).of_drop_eq describes.clientIdFits found
    obtain ⟨willRead, found⟩ :=
      (readsAs_parseWill body flags).of_drop_eq ⟨describes.willFlag, describes.will⟩ found
    obtain ⟨nameRead, found⟩ :=
      readsUsername.of_drop_eq ⟨describes.usernameFlag, describes.usernameFits⟩ found
    obtain ⟨wordRead, -⟩ :=
      readsPassword.of_drop_eq ⟨describes.passwordFlag, describes.passwordFits⟩ found
    rw [parseConnectFields, idRead, ok_bind]
    dsimp only
    rw [willRead, ok_bind]
    dsimp only
    rw [nameRead, ok_bind]
    dsimp only
    rw [wordRead, ok_bind, fromBitsTruncate_eq, describes.cleanSession]

/-- The ten fixed bytes of a CONNECT, then its fields. -/
theorem parseConnect_header (flags : UInt8) (keepAlive : UInt16) (rest : Bytes) :
    parseConnect (protocolHeader ++ flags :: (toBeBytes keepAlive ++ rest)) =
      parseConnectFields (protocolHeader ++ flags :: (toBeBytes keepAlive ++ rest)) flags
        keepAlive := by
  have long : ¬ (protocolHeader ++ flags :: (toBeBytes keepAlive ++ rest)).length < 10 := by
    simp [protocolHeader]
  have name : (Slice.range (protocolHeader ++ flags :: (toBeBytes keepAlive ++ rest)) 2 6 :
      Outcome MqttError Bytes) = ok [0x4D, 0x51, 0x54, 0x54] := by
    rw [Slice.range_of_le (by omega) (by omega)]
    rfl
  rw [parseConnect, if_neg long, Slice.index_eq_ok_iff.mpr rfl, ok_bind,
    Slice.index_eq_ok_iff.mpr rfl, ok_bind, name, ok_bind, if_neg (by decide),
    Slice.index_eq_ok_iff.mpr rfl, ok_bind, if_neg (by decide),
    Slice.index_eq_ok_iff.mpr rfl, ok_bind, Slice.index_eq_ok_iff.mpr rfl, ok_bind,
    Slice.index_eq_ok_iff.mpr rfl, ok_bind, fromBeBytes_toBeBytes]

/-- An accepted CONNECT starts with the protocol name and level. -/
theorem exists_header_of_parseConnect {body : Bytes} {packet : Packet}
    (parsed : parseConnect body = ok packet) :
    ∃ (flags : UInt8) (keepAlive : UInt16) (rest : Bytes),
      body = protocolHeader ++ flags :: (toBeBytes keepAlive ++ rest) := by
  match body with
  | b0 :: b1 :: b2 :: b3 :: b4 :: b5 :: level :: flags :: high :: low :: rest =>
      have long : ¬ (b0 :: b1 :: b2 :: b3 :: b4 :: b5 :: level :: flags :: high :: low ::
          rest).length < 10 := by simp
      have nameRead : (Slice.range (b0 :: b1 :: b2 :: b3 :: b4 :: b5 :: level :: flags ::
          high :: low :: rest) 2 6 : Outcome MqttError Bytes) = ok [b2, b3, b4, b5] := by
        rw [Slice.range_of_le (by omega) (by simp)]
        rfl
      rw [parseConnect, if_neg long, Slice.index_eq_ok_iff.mpr rfl, ok_bind,
        Slice.index_eq_ok_iff.mpr rfl, ok_bind, nameRead, ok_bind] at parsed
      by_cases wrongName : (fromBeBytes b0 b1).toNat ≠ 4 ∨
          [b2, b3, b4, b5] ≠ [0x4D, 0x51, 0x54, 0x54]
      · rw [if_pos wrongName] at parsed
        contradiction
      · rw [if_neg wrongName, Slice.index_eq_ok_iff.mpr rfl, ok_bind] at parsed
        by_cases wrongLevel : level ≠ 0x04
        · rw [if_pos wrongLevel] at parsed
          contradiction
        · obtain ⟨length, name⟩ := not_or.mp wrongName
          have lengthBytes : [b0, b1] = toBeBytes 4 := by
            rw [← toBeBytes_fromBeBytes]
            exact congrArg toBeBytes (UInt16.toNat_inj.mp (not_not.mp length))
          have nameBytes := not_not.mp name
          have levelByte := not_not.mp wrongLevel
          refine ⟨flags, fromBeBytes high low, rest, ?_⟩
          rw [toBeBytes_fromBeBytes, levelByte]
          calc
            _ = [b0, b1] ++ [b2, b3, b4, b5] ++ 0x04 :: flags :: high :: low :: rest := rfl
            _ = _ := by rw [lengthBytes, nameBytes]; rfl
  | [] | [_] | [_, _] | [_, _, _] | [_, _, _, _] | [_, _, _, _, _] | [_, _, _, _, _, _]
  | [_, _, _, _, _, _, _] | [_, _, _, _, _, _, _, _] | [_, _, _, _, _, _, _, _, _] =>
      contradiction

/-- A CONNECT body is accepted exactly when it is the fixed header, a flag byte
that describes the packet returned, the keep-alive, the packet's fields, and any
bytes at all. -/
theorem parseConnect_eq_ok_iff {body : Bytes} {packet : Packet} :
    parseConnect body = ok packet ↔
      ∃ (conn : ConnectPacket) (flags : UInt8) (stray : Bytes), packet = .connect conn ∧
        body = protocolHeader ++
          flags :: (toBeBytes conn.keepAlive ++ (connectFields conn ++ stray)) ∧
        FlagsDescribe flags conn := by
  constructor
  · intro parsed
    obtain ⟨flags, keepAlive, rest, rfl⟩ := exists_header_of_parseConnect parsed
    rw [parseConnect_header, parseConnectFields_eq_ok_iff] at parsed
    obtain ⟨conn, stray, rfl, rfl, found, describes⟩ := parsed
    have restEq : rest = connectFields conn ++ stray := found
    subst restEq
    exact ⟨conn, flags, stray, rfl, rfl, describes⟩
  · rintro ⟨conn, flags, stray, rfl, rfl, describes⟩
    rw [parseConnect_header, parseConnectFields_eq_ok_iff]
    exact ⟨conn, stray, rfl, rfl, rfl, describes⟩

/-- The bits of the flag byte that is written. -/
theorem connectFlags_bits (conn : ConnectPacket) :
    containsFlag (connectFlags conn) ConnectFlags.cleanSession = conn.cleanSession ∧
      containsFlag (connectFlags conn) ConnectFlags.willFlag = conn.will.isSome ∧
      containsFlag (connectFlags conn) ConnectFlags.username = conn.username.isSome ∧
      containsFlag (connectFlags conn) ConnectFlags.password = conn.password.isSome := by
  rcases conn with ⟨clientId, clean, keepAlive, username, password, will⟩
  rcases will with _ | ⟨topic, payload, qos, retain⟩
  · cases clean <;> cases username <;> cases password <;>
      simp only [connectFlags, Option.isSome, reduceIte, Bool.false_eq_true] <;> decide
  · cases clean <;> cases username <;> cases password <;> cases qos <;> cases retain <;>
      simp only [connectFlags, Option.isSome, reduceIte, Bool.false_eq_true] <;> decide

/-- The will bits of the flag byte that is written. -/
theorem connectFlags_will {conn : ConnectPacket} {will : WillPacket}
    (present : conn.will = some will) :
    (connectFlags conn &&& ConnectFlags.willQoSMask) >>> 3 = will.qos.asU8 ∧
      containsFlag (connectFlags conn) ConnectFlags.willRetain = will.retain := by
  rcases conn with ⟨clientId, clean, keepAlive, username, password, _⟩
  rcases will with ⟨topic, payload, qos, retain⟩
  cases present
  cases clean <;> cases username <;> cases password <;> cases qos <;> cases retain <;>
    simp only [connectFlags, Option.isSome, reduceIte, Bool.false_eq_true] <;> decide

/-- Every string and byte field of a CONNECT fits its two-byte length. -/
structure ConnectFits (conn : ConnectPacket) : Prop where
  clientId : FitsField (asBytes conn.clientId)
  will : ∀ will ∈ conn.will, FitsField (asBytes will.topic) ∧ FitsField will.payload
  username : ∀ username ∈ conn.username, FitsField (asBytes username)
  password : ∀ password ∈ conn.password, FitsField password

theorem FlagsDescribe.fits {flags : UInt8} {conn : ConnectPacket}
    (describes : FlagsDescribe flags conn) : ConnectFits conn where
  clientId := describes.clientIdFits
  will will present :=
    ⟨(describes.will will present).topicFits, (describes.will will present).payloadFits⟩
  username := describes.usernameFits
  password := describes.passwordFits

/-- The flag byte that is written describes the packet. -/
theorem flagsDescribe_connectFlags {conn : ConnectPacket} (fits : ConnectFits conn) :
    FlagsDescribe (connectFlags conn) conn := by
  obtain ⟨clean, willFlag, usernameFlag, passwordFlag⟩ := connectFlags_bits conn
  refine ⟨clean, fits.clientId, willFlag, ?_, usernameFlag, fits.username, passwordFlag,
    fits.password⟩
  intro will present
  obtain ⟨qos, retain⟩ := connectFlags_will (Option.mem_def.mp present)
  exact ⟨(fits.will will present).1, (fits.will will present).2, qos, retain⟩

theorem connectBody_eq (conn : ConnectPacket) :
    connectBody conn = protocolHeader ++
      connectFlags conn :: (toBeBytes conn.keepAlive ++ connectFields conn) := by
  simp [connectBody, writeConnectFields_eq]

end HotaruMqtt.Codec
