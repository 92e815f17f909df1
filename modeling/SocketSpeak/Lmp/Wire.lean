import SocketSpeak.CLib.Socket

/-!
# LMP frames on a stream socket

`lmp_send`, `group_lmp_send`, `read_all`, `lmp_recv` and `group_lmp_recv`. The two senders differ
in the reserved byte of the header, the two receivers in whether they hand that byte on, so each
pair is one function here and its two instances.
-/

namespace SocketSpeak
open CLib

def LMP_MAGIC_0 : UInt8 := 0x4C
def LMP_MAGIC_1 : UInt8 := 0x4D

/-! The frame types, `LMPCode` -/

def LMP_MSG : UInt8 := 0x01
def LMP_NICK : UInt8 := 0x02
def LMP_ACK : UInt8 := 0x03
def LMP_MEOW : UInt8 := 0x10
def LMP_STICKERS : UInt8 := 0x05
def LMP_ERROR : UInt8 := 0xFF
def LMP_UID : UInt8 := 0x04
def LMP_GRP_OBJ : UInt8 := 0x80
def LMP_GRP_INFO : UInt8 := 0x11
def LMP_GRP_INIT_MEMBER : UInt8 := 0x12
def LMP_GRP_LOAD_MSG : UInt8 := 0x13
def LMP_GRP_LOADING_MSG : UInt8 := 0x14
def LMP_GRP_HANGMAN : UInt8 := 0x15

/-- `sizeof(lmp_header_t)` -/
def LMP_HEADER_SIZE : Nat := 8

/-- A frame: the fields of the header that vary, and the payload. -/
structure Frame where
  type : UInt8
  reserved : UInt8
  payload : Bytes
  deriving DecidableEq

namespace Frame

/-- The `lmp_header_t` of the frame, in network byte order. -/
def header (f : Frame) : Bytes :=
  [LMP_MAGIC_0, LMP_MAGIC_1, f.type, f.reserved] ++ be32 f.payload.length

/-- The frame as it should stand in the stream. -/
def wire (f : Frame) : Bytes := f.header ++ f.payload

@[simp] theorem length_header (f : Frame) : f.header.length = LMP_HEADER_SIZE := rfl

@[simp] theorem length_wire (f : Frame) : f.wire.length = LMP_HEADER_SIZE + f.payload.length := by
  simp [wire]

end Frame

/-! ## Sending -/

/-- The body that `lmp_send` and `group_lmp_send` share: the header goes out in one `send`, the
payload, if there is one, in a second. `hdrEv` and `payEv` are the answers of the operating system;
the result is the return value and what is then on the wire. -/
def frameSend (hdrEv payEv : SendEvent) (f : Frame) (wire : Bytes) : Int × Bytes :=
  let (r, wire) := send hdrEv f.header wire
  if r < 0 then (-1, wire)
  else if 0 < f.payload.length then
    let (r, wire) := send payEv f.payload wire
    if r < 0 then (-1, wire) else (0, wire)
  else (0, wire)

/-- The conversion `(uint8_t)n` of an `int`. -/
def toUint8 (n : Int) : UInt8 := (n % 256).toNat.toUInt8

theorem toNat_toUint8 (n : Int) : ((toUint8 n).toNat : Int) = n % 256 := by
  have h1 := Int.emod_nonneg n (by decide : (256 : Int) ≠ 0)
  have h2 := Int.emod_lt_of_pos n (by decide : (0 : Int) < 256)
  simp only [toUint8, Nat.toUInt8, UInt8.toNat_ofNat']
  omega

/-- The frame that `lmp_send(fd, type, payload, len)` writes. -/
def lmpFrame (type : UInt8) (payload : Bytes) : Frame := ⟨type, 0, payload⟩

/-- The frame that `group_lmp_send(fd, type, payload, len, sender)` writes. -/
def groupLmpFrame (type : UInt8) (payload : Bytes) (sender : Int) : Frame :=
  ⟨type, toUint8 sender, payload⟩

def lmpSend (hdrEv payEv : SendEvent) (type : UInt8) (payload wire : Bytes) : Int × Bytes :=
  frameSend hdrEv payEv (lmpFrame type payload) wire

def groupLmpSend (hdrEv payEv : SendEvent) (type : UInt8) (payload : Bytes) (sender : Int)
    (wire : Bytes) : Int × Bytes :=
  frameSend hdrEv payEv (groupLmpFrame type payload sender) wire

/-! ## Receiving -/

/-- The loop of `read_all`, with `acc` the bytes read so far. Each round uses up an answer of the
operating system or brings a byte, unless it is the last one, so the fuel that `readAll` gives it
is never used up. -/
def readAllLoop (n : Nat) : Nat → Sock → Bytes → Int × Bytes × Sock
  | 0, s, acc => (acc.length, acc, s)
  | fuel + 1, s, acc =>
    if acc.length < n then
      match s.read (n - acc.length) with
      | (.intr, s) => readAllLoop n fuel s acc
      | (.error, s) => (-1, acc, s)
      | (.got [], s) => (acc.length, acc, s)
      | (.got (b :: bs), s) => readAllLoop n fuel s (acc ++ b :: bs)
    else (acc.length, acc, s)

/-- `read_all(fd, buf, n)`: the return value, the bytes stored from `buf` on, and the socket. -/
def readAll (s : Sock) (n : Nat) : Int × Bytes × Sock :=
  readAllLoop n (s.sched.length + n + 1) s []

/-- What a successful receive leaves behind: the header's fields and the caller's buffer. -/
structure FrameIn where
  type : UInt8
  reserved : UInt8
  len : Nat
  buf : Bytes
  deriving DecidableEq

/-- The body that `lmp_recv` and `group_lmp_recv` share. `buf` is the caller's buffer, whose length
is `bufsize`; the error is the negative status. A header that is cut short is compared as if zeros
followed it, which changes nothing: the status is `-3` in any case. -/
def recvFrame (s : Sock) (buf : Bytes) : Except Int FrameIn × Sock :=
  let (headerBytes, hdr, s) := readAll s LMP_HEADER_SIZE
  if headerBytes < 0 then (.error (-1), s)
  else if headerBytes = 0 then (.error (-2), s)
  else if hdr.getD 0 0 ≠ LMP_MAGIC_0 ∨ hdr.getD 1 0 ≠ LMP_MAGIC_1 ∨
      headerBytes < LMP_HEADER_SIZE then (.error (-3), s)
  else
    let plen := ofBe ((hdr.drop 4).take 4)
    if buf.length ≤ plen then (.error (-4), s)
    else if plen = 0 then (.ok ⟨hdr.getD 2 0, hdr.getD 3 0, 0, buf.set 0 0⟩, s)
    else
      let (r, payload, s) := readAll s plen
      if r ≤ 0 then (.error (-5), s)
      else
        -- a short count is taken for a whole payload
        (.ok ⟨hdr.getD 2 0, hdr.getD 3 0, plen,
          (payload ++ buf.drop payload.length).set plen 0⟩, s)

/-- The out parameters of `lmp_recv` after status 0. -/
structure Received where
  type : UInt8
  len : Nat
  buf : Bytes
  deriving DecidableEq

/-- The out parameters of `group_lmp_recv` after status 0. -/
structure GroupReceived extends Received where
  sender : Int
  deriving DecidableEq

def FrameIn.received (f : FrameIn) : Received := ⟨f.type, f.len, f.buf⟩

def FrameIn.groupReceived (f : FrameIn) : GroupReceived := ⟨f.received, f.reserved.toNat⟩

def lmpRecv (s : Sock) (buf : Bytes) : Except Int Received × Sock :=
  let (r, s) := recvFrame s buf
  (r.map FrameIn.received, s)

def groupLmpRecv (s : Sock) (buf : Bytes) : Except Int GroupReceived × Sock :=
  let (r, s) := recvFrame s buf
  (r.map FrameIn.groupReceived, s)

end SocketSpeak
