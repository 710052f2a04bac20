import ProjectPl.PacketCore

/-!
The packets of `packet_protocol_cs.h` and `packet_protocol_sc.h` with the records of
`character_base.h` they carry, and the tables that `RegisterPacketHandlers` fills on the
server and on the client. `INT32` and `INT64` members are integers, and only the encoding
truncates them to their width.

The straight-line part of every `Serialize` is a list of integer members, each naming the
width of the `Value` overload it selects. A call of a handler is recorded by the packet it
receives, one constructor for each handler.
-/

namespace ProjectPl

open LittleEndian

/-- An integer member with the `Value` overload for its width. -/
structure Member (P : Type) where
  width : Nat
  get : P → Int
  set : P → Int → P

namespace Member

variable {P : Type}

def int32 (get : P → Int) (set : P → Int → P) : Member P := ⟨4, get, set⟩

def int64 (get : P → Int) (set : P → Int → P) : Member P := ⟨8, get, set⟩

def value (member : Member P) (ser : Serializer) (packet : P) : Serializer × P :=
  let result := ser.scalar member.width (encodeSigned member.width) decodeSigned (member.get packet)
  (result.1, member.set packet result.2)

def values : List (Member P) → Serializer → P → Serializer × P
  | [], ser, packet => (ser, packet)
  | member :: rest, ser, packet =>
      let result := member.value ser packet
      values rest result.1 result.2

end Member

/-! Records of `character_base.h`. -/

structure Position where
  zoneId : Int := 0
  posX : Int := 0
  posY : Int := 0
  deriving DecidableEq, Repr

structure CharacterDbData where
  token : Int := 0
  pos : Position := {}
  deriving DecidableEq, Repr

def Position.members : List (Member Position) :=
  [.int32 (·.zoneId) fun p v => { p with zoneId := v },
   .int32 (·.posX) fun p v => { p with posX := v },
   .int32 (·.posY) fun p v => { p with posY := v }]

def Position.serialize (ser : Serializer) (position : Position) : Serializer × Position :=
  Member.values members ser position

def CharacterDbData.serialize (ser : Serializer) (data : CharacterDbData) :
    Serializer × CharacterDbData :=
  let token := ser.valueInt64 data.token
  let pos := Position.serialize token.1 data.pos
  (pos.1, { token := token.2, pos := pos.2 })

/-! Client to server. -/

inductive PacketTypeC2S
  | invalid | auth | enter | leave | move | interaction | heartbeat | echo | max
  deriving DecidableEq, Repr

def PacketTypeC2S.toNat : PacketTypeC2S → Nat
  | invalid => 0
  | auth => 1
  | enter => 2
  | leave => 3
  | move => 4
  | interaction => 5
  | heartbeat => 6
  | echo => 7
  | max => 8

def maxEchoDataLength : Nat := 32

structure CsPAuth where
  id : Int := 0
  deriving DecidableEq, Repr

structure CsPEnter where
  token : Int := 0
  deriving DecidableEq, Repr

structure CsPLeave where
  token : Int := 0
  deriving DecidableEq, Repr

structure CsPMove where
  x : Int := 0
  y : Int := 0
  deriving DecidableEq, Repr

structure CsPInteraction where
  targetToken : Int := 0
  interactionType : Int := 0
  deriving DecidableEq, Repr

structure CsPHeartbeat where
  deriving DecidableEq, Repr

structure CsPEcho where
  echoDataSize : Int := 0
  echoData : List UInt8 := List.replicate maxEchoDataLength 0
  deriving DecidableEq, Repr

def csPAuth : PacketClass CsPAuth where
  packetType := PacketTypeC2S.auth.toNat
  default := {}
  serialize := Member.values [.int32 (·.id) fun p v => { p with id := v }]

def csPEnter : PacketClass CsPEnter where
  packetType := PacketTypeC2S.enter.toNat
  default := {}
  serialize := Member.values [.int64 (·.token) fun p v => { p with token := v }]

def csPLeave : PacketClass CsPLeave where
  packetType := PacketTypeC2S.leave.toNat
  default := {}
  serialize := Member.values [.int64 (·.token) fun p v => { p with token := v }]

def csPMove : PacketClass CsPMove where
  packetType := PacketTypeC2S.move.toNat
  default := {}
  serialize := Member.values
    [.int32 (·.x) fun p v => { p with x := v }, .int32 (·.y) fun p v => { p with y := v }]

def csPInteraction : PacketClass CsPInteraction where
  packetType := PacketTypeC2S.interaction.toNat
  default := {}
  serialize := Member.values
    [.int64 (·.targetToken) fun p v => { p with targetToken := v },
     .int32 (·.interactionType) fun p v => { p with interactionType := v }]

def csPHeartbeat : PacketClass CsPHeartbeat where
  packetType := PacketTypeC2S.heartbeat.toNat
  default := {}
  serialize := Member.values []

def csPEcho : PacketClass CsPEcho where
  packetType := PacketTypeC2S.echo.toNat
  default := {}
  serialize := fun ser packet =>
    let size := ser.valueInt32 packet.echoDataSize
    let data := size.1.valueBytes packet.echoData size.2
    (data.1, { echoDataSize := size.2, echoData := data.2 })

inductive C2SCall
  | auth (packet : CsPAuth)
  | enter (packet : CsPEnter)
  | leave (packet : CsPLeave)
  | move (packet : CsPMove)
  | interaction (packet : CsPInteraction)
  | heartbeat (packet : CsPHeartbeat)
  | echo (packet : CsPEcho)
  deriving DecidableEq, Repr

/-! The server's `_impl`, a static object, so its table starts out zeroed. -/

/-- The numbers that no `Register` names stay without a functor. -/
def serverTable : PacketTable C2SCall :=
  PacketTable.register
    (PacketTable.register
      (PacketTable.register
        (PacketTable.register
          (PacketTable.register
            (PacketTable.register
              (PacketTable.register (List.replicate PacketTypeC2S.max.toNat none) csPAuth .auth)
              csPEnter .enter)
            csPLeave .leave)
          csPMove .move)
        csPHeartbeat .heartbeat)
      csPInteraction .interaction)
    csPEcho .echo

/-! Server to client. -/

inductive PacketTypeS2C
  | invalid | authResult | enter | enterCharacter | leave | move | interaction | heartbeat | echo
  | max
  deriving DecidableEq, Repr

def PacketTypeS2C.toNat : PacketTypeS2C → Nat
  | invalid => 0
  | authResult => 1
  | enter => 2
  | enterCharacter => 3
  | leave => 4
  | move => 5
  | interaction => 6
  | heartbeat => 7
  | echo => 8
  | max => 9

def maxSendCountCharacterDbData : Nat := 20

structure ScPAuthResult where
  id : Int := 0
  token : Int := 0
  deriving DecidableEq, Repr

structure ScPEnter where
  token : Int := 0
  x : Int := 0
  y : Int := 0
  deriving DecidableEq, Repr

structure ScPEnterCharacterList where
  count : Int := 0
  data : List CharacterDbData := List.replicate maxSendCountCharacterDbData {}
  deriving DecidableEq, Repr

structure ScPLeave where
  token : Int := 0
  deriving DecidableEq, Repr

structure ScPMove where
  token : Int := 0
  x : Int := 0
  y : Int := 0
  deriving DecidableEq, Repr

structure ScPInteraction where
  token : Int := 0
  targetToken : Int := 0
  interactionType : Int := 0
  deriving DecidableEq, Repr

structure ScPHeartbeat where
  deriving DecidableEq, Repr

structure ScPEcho where
  token : Int := 0
  echoDataSize : Int := 0
  echoData : List UInt8 := List.replicate maxEchoDataLength 0
  deriving DecidableEq, Repr

def scPAuthResult : PacketClass ScPAuthResult where
  packetType := PacketTypeS2C.authResult.toNat
  default := {}
  serialize := Member.values
    [.int32 (·.id) fun p v => { p with id := v },
     .int64 (·.token) fun p v => { p with token := v }]

def scPEnter : PacketClass ScPEnter where
  packetType := PacketTypeS2C.enter.toNat
  default := {}
  serialize := Member.values
    [.int64 (·.token) fun p v => { p with token := v },
     .int32 (·.x) fun p v => { p with x := v },
     .int32 (·.y) fun p v => { p with y := v }]

/-! The loop of `SC_P_ENTER_CHARACTER_LIST::Serialize`, with the number of rounds left. An
element counts as stored when at least one of its members was read. -/

def serializeEntries : Nat → Nat → Serializer → List CharacterDbData →
    Serializer × List CharacterDbData
  | 0, _, ser, data => (ser, data)
  | rounds + 1, idx, ser, data =>
      let entry := CharacterDbData.serialize ser (data[idx]?.getD {})
      let filled := ser.forSend = false ∧ entry.1.nDataSize < ser.nDataSize
      let next := if filled then { entry.1 with stores := entry.1.stores ++ [idx] } else entry.1
      serializeEntries rounds (idx + 1) next (data.set idx entry.2)

def scPEnterCharacterList : PacketClass ScPEnterCharacterList where
  packetType := PacketTypeS2C.enterCharacter.toNat
  default := {}
  serialize := fun ser packet =>
    let count := ser.valueInt32 packet.count
    let entries := serializeEntries count.2.toNat 0 count.1 packet.data
    (entries.1, { count := count.2, data := entries.2 })

def scPLeave : PacketClass ScPLeave where
  packetType := PacketTypeS2C.leave.toNat
  default := {}
  serialize := Member.values [.int64 (·.token) fun p v => { p with token := v }]

def scPMove : PacketClass ScPMove where
  packetType := PacketTypeS2C.move.toNat
  default := {}
  serialize := Member.values
    [.int64 (·.token) fun p v => { p with token := v },
     .int32 (·.x) fun p v => { p with x := v },
     .int32 (·.y) fun p v => { p with y := v }]

def scPInteraction : PacketClass ScPInteraction where
  packetType := PacketTypeS2C.interaction.toNat
  default := {}
  serialize := Member.values
    [.int64 (·.token) fun p v => { p with token := v },
     .int64 (·.targetToken) fun p v => { p with targetToken := v },
     .int32 (·.interactionType) fun p v => { p with interactionType := v }]

def scPHeartbeat : PacketClass ScPHeartbeat where
  packetType := PacketTypeS2C.heartbeat.toNat
  default := {}
  serialize := Member.values []

def scPEcho : PacketClass ScPEcho where
  packetType := PacketTypeS2C.echo.toNat
  default := {}
  serialize := fun ser packet =>
    let token := ser.valueInt64 packet.token
    let size := token.1.valueInt32 packet.echoDataSize
    let data := size.1.valueBytes packet.echoData size.2
    (data.1, { token := token.2, echoDataSize := size.2, echoData := data.2 })

inductive S2CCall
  | authResult (packet : ScPAuthResult)
  | enter (packet : ScPEnter)
  | enterCharacter (packet : ScPEnterCharacterList)
  | leave (packet : ScPLeave)
  | move (packet : ScPMove)
  | interaction (packet : ScPInteraction)
  | heartbeat (packet : ScPHeartbeat)
  | echo (packet : ScPEcho)
  deriving DecidableEq, Repr

def clientTable : PacketTable S2CCall :=
  PacketTable.register
    (PacketTable.register
      (PacketTable.register
        (PacketTable.register
          (PacketTable.register
            (PacketTable.register
              (PacketTable.register
                (PacketTable.register (List.replicate PacketTypeS2C.max.toNat none)
                  scPAuthResult .authResult)
                scPEnter .enter)
              scPEnterCharacterList .enterCharacter)
            scPLeave .leave)
          scPMove .move)
        scPInteraction .interaction)
      scPHeartbeat .heartbeat)
    scPEcho .echo

end ProjectPl
