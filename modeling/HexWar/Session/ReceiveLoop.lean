/-
  How a client's messages come out of the frames of its socket.

  The loop reads each frame into one buffer, which it has from a pool and never clears.  A message that
  comes in one frame is parsed where it lies; any other is gathered in a stream first, in a loop of its
  own.  `fragmentation_invisible` says that it makes no difference: whatever the buffer held and however
  each message was split, every message is parsed once, as a whole and in its turn.

  The loop is followed from one ReceiveAsync to the next.  Between two of them it does not wait for the
  socket, so what it does there is one step.
-/
import HexWar.Domain.Basic

namespace HexWar

/-! ## The socket -/

/-- The kinds of frames that the socket tells apart. -/
inductive WebSocketMessageType where
  | text
  | binary
  | close
deriving DecidableEq, Repr

/-- What ReceiveAsync returns, with the bytes that it has put at the front of the buffer. -/
structure ReceiveResult (size : Nat) where
  messageType : WebSocketMessageType
  payload : List UInt8
  endOfMessage : Bool
  fits : payload.length ≤ size
deriving Repr

/-- The number of bytes that have arrived with a frame. -/
def ReceiveResult.count {size : Nat} (result : ReceiveResult size) : Nat := result.payload.length

/-- What ReceiveAsync throws, as far as the loop has a catch block of its own for it. -/
inductive ReceiveException where
  | webSocketException
  | operationCanceledException
  | exception
deriving DecidableEq, Repr

/-- What becomes of a ReceiveAsync. -/
inductive SocketEvent (size : Nat) where
  | returns (result : ReceiveResult size)
  | throws (ex : ReceiveException)
deriving Repr

/-- How the loop ends. -/
inductive LoopEnd where
  /-- The client has closed, and CloseAsync was called. -/
  | closed
  /-- The socket was found not to be open. -/
  | notOpen
  /-- ReceiveAsync has thrown; it is logged. -/
  | caught (ex : ReceiveException)
deriving DecidableEq, Repr

/-- The buffer: whatever was left in it by who had it before. -/
structure ReceiveBuffer (size : Nat) where
  bytes : List UInt8
  length_eq : bytes.length = size
  rented : 1024 * 4 ≤ size

namespace ReceiveBuffer

variable {size : Nat}

/-- ReceiveAsync writes to the front and leaves the rest as it is. -/
def fill (buffer : ReceiveBuffer size) (result : ReceiveResult size) : ReceiveBuffer size where
  bytes := result.payload ++ buffer.bytes.drop result.payload.length
  length_eq := by
    have hfits := result.fits
    have hlength := buffer.length_eq
    rw [List.length_append, List.length_drop]
    omega
  rented := buffer.rented

/-- The first bytes of the buffer. -/
def asSpan (buffer : ReceiveBuffer size) (count : Nat) : List UInt8 := buffer.bytes.take count

/-- What is read right after a frame has come in is that frame, whatever was in the buffer before
    it. -/
@[simp] theorem asSpan_fill (buffer : ReceiveBuffer size) (result : ReceiveResult size) :
    (buffer.fill result).asSpan result.count = result.payload :=
  List.take_left

end ReceiveBuffer

/-! ## What is done with a message -/

/-- What a deserialiser comes to. -/
inductive Deserialized (ClientMessage : Type) where
  | message (clientMessage : ClientMessage)
  | null
  | jsonException
  | exception (message : String)

/-- What ProcessMessageAsync comes to. -/
inductive Processed where
  | done
  | jsonException
  | exception (message : String)
deriving DecidableEq, Repr

/-- The deserialisers of the two paths, and what processing a message does to the rest of the server,
    the state of the socket included. -/
structure MessageHandling (Server ClientMessage : Type) where
  deserialize : List UInt8 → Deserialized ClientMessage
  deserializeAsync : List UInt8 → Deserialized ClientMessage
  processMessage : Server → ClientMessage → Server × Processed
  isOpen : Server → Bool

variable {Server ClientMessage : Type}

/-- The server, and what the loop has done so far: the bytes it gave to a deserialiser, the messages it
    processed and the errors it sent. -/
structure Serving (Server ClientMessage : Type) where
  server : Server
  parsed : List (List UInt8)
  processed : List ClientMessage
  errors : List String

namespace Serving

/-- The client is told of an error. -/
def sendError (v : Serving Server ClientMessage) (message : String) : Serving Server ClientMessage :=
  { v with errors := v.errors ++ [message] }

/-- The try block, and its two catch blocks, once the message is parsed. -/
def handle (h : MessageHandling Server ClientMessage) (v : Serving Server ClientMessage)
    (bytes : List UInt8) (deserialized : Deserialized ClientMessage) : Serving Server ClientMessage :=
  let v := { v with parsed := v.parsed ++ [bytes] }
  match deserialized with
  | .message clientMessage =>
    let outcome := h.processMessage v.server clientMessage
    let v := { v with server := outcome.1, processed := v.processed ++ [clientMessage] }
    match outcome.2 with
    | .done => v
    | .jsonException => v.sendError "Invalid JSON"
    | .exception message => v.sendError ("Internal error: " ++ message)
  | .null => v.sendError "Invalid message format"
  | .jsonException => v.sendError "Invalid JSON"
  | .exception message => v.sendError ("Internal error: " ++ message)

end Serving

/-! ## The loop -/

/-- Where the loop is. -/
inductive LoopPoint where
  /-- It waits for the first frame of a message. -/
  | first
  /-- It waits for a further one, and has these bytes in its stream. -/
  | further (ms : List UInt8)
  | ended (reason : LoopEnd)
deriving DecidableEq, Repr

/-- The loop between two frames: its rented buffer, where it stands, and what it has done for the
    client. -/
structure ReceiveLoop (Server ClientMessage : Type) (size : Nat) where
  buffer : ReceiveBuffer size
  point : LoopPoint
  serving : Serving Server ClientMessage

namespace ReceiveLoop

variable {size : Nat} (h : MessageHandling Server ClientMessage)

/-- The head of the outer loop. -/
def whileOpen (l : ReceiveLoop Server ClientMessage size) : ReceiveLoop Server ClientMessage size :=
  { l with point := if h.isOpen l.serving.server then .first else .ended .notOpen }

/-- CloseAsync, and out of the loop. -/
def close (l : ReceiveLoop Server ClientMessage size) : ReceiveLoop Server ClientMessage size :=
  { l with point := .ended .closed }

/-- The message is in the buffer. -/
def fastPath (l : ReceiveLoop Server ClientMessage size) (count : Nat) :
    ReceiveLoop Server ClientMessage size :=
  let bytes := l.buffer.asSpan count
  whileOpen h { l with serving := l.serving.handle h bytes (h.deserialize bytes) }

/-- The message is in the stream. -/
def slowPath (l : ReceiveLoop Server ClientMessage size) (ms : List UInt8) :
    ReceiveLoop Server ClientMessage size :=
  whileOpen h { l with serving := l.serving.handle h ms (h.deserializeAsync ms) }

/-- ReceiveAsync has returned in the outer loop. -/
def receiveFirst (l : ReceiveLoop Server ClientMessage size) (firstResult : ReceiveResult size) :
    ReceiveLoop Server ClientMessage size :=
  let l := { l with buffer := l.buffer.fill firstResult }
  match firstResult.messageType with
  | .close => l.close
  | .text =>
    if firstResult.endOfMessage then l.fastPath h firstResult.count
    else { l with point := .further (l.buffer.asSpan firstResult.count) }
  | .binary => l.whileOpen h

/-- ReceiveAsync has returned in the inner loop. -/
def receiveFurther (l : ReceiveLoop Server ClientMessage size) (ms : List UInt8)
    (loopResult : ReceiveResult size) : ReceiveLoop Server ClientMessage size :=
  let l := { l with buffer := l.buffer.fill loopResult }
  let ms := ms ++ l.buffer.asSpan loopResult.count
  if loopResult.endOfMessage then
    if loopResult.messageType = .close then l.close else l.slowPath h ms
  else { l with point := .further ms }

/-- What the loop does with a frame, or with an exception of the socket. -/
def next (l : ReceiveLoop Server ClientMessage size) (event : SocketEvent size) :
    ReceiveLoop Server ClientMessage size :=
  match l.point, event with
  | .ended _, _ => l
  | _, .throws ex => { l with point := .ended (.caught ex) }
  | .first, .returns firstResult => l.receiveFirst h firstResult
  | .further ms, .returns loopResult => l.receiveFurther h ms loopResult

/-- ReceiveLoopAsync on what the socket delivers. -/
def receiveLoopAsync (buffer : ReceiveBuffer size) (server : Server)
    (events : List (SocketEvent size)) :
    ReceiveLoop Server ClientMessage size :=
  events.foldl (next h) (whileOpen h ⟨buffer, .first, ⟨server, [], [], []⟩⟩)

end ReceiveLoop

/-! ## What the client sends -/

/-- The bytes of one frame of a text message. -/
structure Fragment (size : Nat) where
  payload : List UInt8
  fits : payload.length ≤ size
deriving DecidableEq, Repr

/-- A text message, split into frames in one of the many ways. -/
structure TextMessage (size : Nat) where
  fragments : List (Fragment size)
  last : Fragment size
deriving DecidableEq, Repr

variable {size : Nat}

/-- What is received of a frame of a text message. -/
def Fragment.received (fragment : Fragment size) (endOfMessage : Bool) : SocketEvent size :=
  .returns ⟨.text, fragment.payload, endOfMessage, fragment.fits⟩

namespace TextMessage

/-- The text of the message, however it was split. -/
def bytes (message : TextMessage size) : List UInt8 :=
  (message.fragments.map (·.payload)).flatten ++ message.last.payload

def received (message : TextMessage size) : List (SocketEvent size) :=
  message.fragments.map (·.received false) ++ [message.last.received true]

end TextMessage

/-- A close frame. -/
def closeReceived (size : Nat) : SocketEvent size := .returns ⟨.close, [], true, Nat.zero_le _⟩

/-- What the loop receives of a client who sends these messages and then, perhaps, closes; what the
    socket would deliver after a close is left open. -/
def received (messages : List (TextMessage size)) : Option (List (SocketEvent size)) →
    List (SocketEvent size)
  | none => messages.flatMap (·.received)
  | some later => messages.flatMap (·.received) ++ closeReceived size :: later

/-! ## What it should come to -/

/-- Each message parsed by itself, whole and in its turn. -/
def served (h : MessageHandling Server ClientMessage) (server : Server) (messages : List (List UInt8)) :
    Serving Server ClientMessage :=
  messages.foldl (fun v bytes => v.handle h bytes (h.deserialize bytes)) ⟨server, [], [], []⟩

namespace Serving

/-- Whatever becomes of a message, its bytes went to a deserialiser once. -/
theorem handle_parsed (h : MessageHandling Server ClientMessage) (v : Serving Server ClientMessage)
    (bytes : List UInt8) (deserialized : Deserialized ClientMessage) :
    (v.handle h bytes deserialized).parsed = v.parsed ++ [bytes] := by
  cases deserialized with
  | message clientMessage =>
    rw [handle]
    split <;> rfl
  | null => rfl
  | jsonException => rfl
  | exception message => rfl

end Serving

/-- Served one by one, the messages are parsed as they were sent. -/
theorem served_parsed (h : MessageHandling Server ClientMessage) (server : Server)
    (messages : List (List UInt8)) : (served h server messages).parsed = messages := by
  have hfold : ∀ v : Serving Server ClientMessage,
      (messages.foldl (fun v bytes => v.handle h bytes (h.deserialize bytes)) v).parsed =
        v.parsed ++ messages := by
    induction messages with
    | nil => intro v; exact (List.append_nil _).symm
    | cons bytes messages ih =>
      intro v
      rw [List.foldl_cons, ih, Serving.handle_parsed, List.append_assoc, List.singleton_append]
  rw [served, hfold, List.nil_append]

/-- The socket stays open while messages are processed. -/
def StaysOpen (h : MessageHandling Server ClientMessage) : Prop :=
  ∀ server clientMessage, h.isOpen server = true →
    h.isOpen (h.processMessage server clientMessage).1 = true

theorem StaysOpen.handle {h : MessageHandling Server ClientMessage} (hstays : StaysOpen h)
    {v : Serving Server ClientMessage} (hopen : h.isOpen v.server = true) (bytes : List UInt8)
    (deserialized : Deserialized ClientMessage) :
    h.isOpen (v.handle h bytes deserialized).server = true := by
  cases deserialized with
  | message clientMessage =>
    rw [Serving.handle]
    split <;> exact hstays v.server clientMessage hopen
  | null => exact hopen
  | jsonException => exact hopen
  | exception message => exact hopen

/-! ## The loop, frame by frame -/

namespace ReceiveLoop

variable {h : MessageHandling Server ClientMessage} {l : ReceiveLoop Server ClientMessage size}

/-- A frame at the outer receive. -/
theorem next_first (hl : l.point = .first) (result : ReceiveResult size) :
    next h l (.returns result) = l.receiveFirst h result := by
  cases l
  cases hl
  rfl

/-- A frame at the inner receive. -/
theorem next_further {ms : List UInt8} (hl : l.point = .further ms) (result : ReceiveResult size) :
    next h l (.returns result) = l.receiveFurther h ms result := by
  cases l
  cases hl
  rfl

/-- Once the loop is over, the socket is not read. -/
theorem foldl_ended (reason : LoopEnd) (hl : l.point = .ended reason)
    (events : List (SocketEvent size)) :
    events.foldl (next h) l = l := by
  induction events with
  | nil => rfl
  | cons event events ih =>
    have hnext : next h l event = l := by
      cases l
      cases hl
      rfl
    rw [List.foldl_cons, hnext, ih]

/-- While the socket is open the loop goes back to its outer receive. -/
theorem whileOpen_open (hopen : h.isOpen l.serving.server = true) :
    whileOpen h l = { l with point := .first } := by
  rw [whileOpen, if_pos hopen]

/-- A frame that does not end its message goes to the stream. -/
theorem receiveFurther_fragment (ms : List UInt8) (fragment : Fragment size) :
    l.receiveFurther h ms ⟨.text, fragment.payload, false, fragment.fits⟩ =
      ⟨l.buffer.fill ⟨.text, fragment.payload, false, fragment.fits⟩, .further (ms ++ fragment.payload),
        l.serving⟩ := by
  rw [receiveFurther]
  simp only [ReceiveBuffer.asSpan_fill]
  rfl

/-- The frame that ends it sends the stream to the parser. -/
theorem receiveFurther_last (hstays : StaysOpen h) (hopen : h.isOpen l.serving.server = true)
    (ms : List UInt8) (fragment : Fragment size) :
    l.receiveFurther h ms ⟨.text, fragment.payload, true, fragment.fits⟩ =
      ⟨l.buffer.fill ⟨.text, fragment.payload, true, fragment.fits⟩, .first,
        l.serving.handle h (ms ++ fragment.payload) (h.deserializeAsync (ms ++ fragment.payload))⟩ := by
  rw [receiveFurther]
  simp only [ReceiveBuffer.asSpan_fill]
  exact whileOpen_open (hstays.handle hopen _ _)

/-- The first frame of several opens a stream. -/
theorem receiveFirst_fragment (fragment : Fragment size) :
    l.receiveFirst h ⟨.text, fragment.payload, false, fragment.fits⟩ =
      ⟨l.buffer.fill ⟨.text, fragment.payload, false, fragment.fits⟩, .further fragment.payload,
        l.serving⟩ := by
  rw [receiveFirst]
  simp only [ReceiveBuffer.asSpan_fill]
  rfl

/-- A message in one frame is parsed in the buffer, of which the parser sees the message and no more. -/
theorem receiveFirst_last (hstays : StaysOpen h) (hopen : h.isOpen l.serving.server = true)
    (fragment : Fragment size) :
    l.receiveFirst h ⟨.text, fragment.payload, true, fragment.fits⟩ =
      ⟨l.buffer.fill ⟨.text, fragment.payload, true, fragment.fits⟩, .first,
        l.serving.handle h fragment.payload (h.deserialize fragment.payload)⟩ := by
  rw [receiveFirst]
  simp only [fastPath, ReceiveBuffer.asSpan_fill]
  exact whileOpen_open (hstays.handle hopen _ _)

/-- The frames of a message that is not yet complete gather in the stream. -/
theorem foldl_fragments (fragments : List (Fragment size)) :
    ∀ {l : ReceiveLoop Server ClientMessage size} {ms : List UInt8}, l.point = .further ms →
      ∃ buffer, (fragments.map (·.received false)).foldl (next h) l =
        ⟨buffer, .further (ms ++ (fragments.map (·.payload)).flatten), l.serving⟩ := by
  induction fragments with
  | nil =>
    intro l ms hl
    refine ⟨l.buffer, ?_⟩
    rw [List.map_nil, List.foldl_nil, List.map_nil, List.flatten_nil, List.append_nil, ← hl]
  | cons fragment fragments ih =>
    intro l ms hl
    rw [List.map_cons, List.foldl_cons, Fragment.received, next_further hl, receiveFurther_fragment]
    obtain ⟨buffer, hrest⟩ := ih (l := ⟨_, .further (ms ++ fragment.payload), l.serving⟩) rfl
    refine ⟨buffer, ?_⟩
    rw [hrest, List.map_cons, List.flatten_cons, List.append_assoc]

/-- The first of several frames opens the stream. -/
theorem foldl_opened (hl : l.point = .first) (fragment : Fragment size)
    (fragments : List (Fragment size)) :
    ∃ buffer, ((fragment :: fragments).map (·.received false)).foldl (next h) l =
      ⟨buffer, .further ((fragment :: fragments).map (·.payload)).flatten, l.serving⟩ := by
  rw [List.map_cons, List.foldl_cons, Fragment.received, next_first hl, receiveFirst_fragment]
  exact foldl_fragments (h := h) fragments
    (l := ⟨l.buffer.fill ⟨.text, fragment.payload, false, fragment.fits⟩, .further fragment.payload,
      l.serving⟩) rfl

/-- **A message is parsed once and as a whole**, however it was split. -/
theorem foldl_message (hagree : ∀ bytes, h.deserializeAsync bytes = h.deserialize bytes)
    (hstays : StaysOpen h) (hl : l.point = .first) (hopen : h.isOpen l.serving.server = true)
    (message : TextMessage size) :
    ∃ buffer, message.received.foldl (next h) l =
      ⟨buffer, .first, l.serving.handle h message.bytes (h.deserialize message.bytes)⟩ := by
  obtain ⟨fragments, last⟩ := message
  rw [TextMessage.received, TextMessage.bytes, List.foldl_append, List.foldl_cons, List.foldl_nil]
  cases fragments with
  | nil =>
    refine ⟨l.buffer.fill ⟨.text, last.payload, true, last.fits⟩, ?_⟩
    rw [List.map_nil, List.foldl_nil, Fragment.received, next_first hl,
      receiveFirst_last hstays hopen]
    rfl
  | cons fragment fragments =>
    obtain ⟨buffer, hopened⟩ := foldl_opened (h := h) hl fragment fragments
    refine ⟨buffer.fill ⟨.text, last.payload, true, last.fits⟩, ?_⟩
    have hlast := receiveFurther_last
      (l := ⟨buffer, .further ((fragment :: fragments).map (·.payload)).flatten, l.serving⟩)
      hstays hopen ((fragment :: fragments).map (·.payload)).flatten last
    rw [hagree] at hlast
    rw [hopened, Fragment.received, next_further rfl]
    exact hlast

/-- Message after message. -/
theorem foldl_messages (hagree : ∀ bytes, h.deserializeAsync bytes = h.deserialize bytes)
    (hstays : StaysOpen h) (messages : List (TextMessage size)) :
    ∀ {l : ReceiveLoop Server ClientMessage size}, l.point = .first →
      h.isOpen l.serving.server = true →
      ∃ buffer, (messages.flatMap (·.received)).foldl (next h) l =
        ⟨buffer, .first, (messages.map (·.bytes)).foldl
          (fun v bytes => v.handle h bytes (h.deserialize bytes)) l.serving⟩ := by
  induction messages with
  | nil =>
    intro l hl hopen
    refine ⟨l.buffer, ?_⟩
    rw [List.flatMap_nil, List.foldl_nil, List.map_nil, List.foldl_nil, ← hl]
  | cons message messages ih =>
    intro l hl hopen
    rw [List.flatMap_cons, List.foldl_append]
    obtain ⟨buffer, hmessage⟩ := foldl_message hagree hstays hl hopen message
    rw [hmessage]
    exact ih rfl (hstays.handle hopen _ _)

/-- A close ends the loop, and nothing is read after it. -/
theorem foldl_closed (hl : l.point = .first) (later : List (SocketEvent size)) :
    ∃ buffer, (closeReceived size :: later).foldl (next h) l =
      ⟨buffer, .ended .closed, l.serving⟩ := by
  refine ⟨l.buffer.fill ⟨.close, [], true, Nat.zero_le _⟩, ?_⟩
  rw [List.foldl_cons, closeReceived, next_first hl]
  exact foldl_ended .closed rfl later

/-- **The loop serves the messages**: each parsed by itself, whole and in its turn. -/
theorem receiveLoopAsync_served (hagree : ∀ bytes, h.deserializeAsync bytes = h.deserialize bytes)
    (hstays : StaysOpen h) (buffer : ReceiveBuffer size) {server : Server}
    (hopen : h.isOpen server = true) (messages : List (TextMessage size))
    (closing : Option (List (SocketEvent size))) :
    ∃ buffer', receiveLoopAsync h buffer server (received messages closing) =
      ⟨buffer', if closing.isSome then .ended .closed else .first,
        served h server (messages.map (·.bytes))⟩ := by
  rw [receiveLoopAsync, whileOpen_open hopen]
  obtain ⟨buffer', hmessages⟩ := foldl_messages hagree hstays messages
    (l := ⟨buffer, .first, ⟨server, [], [], []⟩⟩) rfl hopen
  cases closing with
  | none => exact ⟨buffer', hmessages⟩
  | some later =>
    obtain ⟨buffer'', hclosed⟩ := foldl_closed (h := h)
      (l := ⟨buffer', .first, served h server (messages.map (·.bytes))⟩) rfl later
    refine ⟨buffer'', ?_⟩
    rw [received, List.foldl_append, hmessages]
    exact hclosed

end ReceiveLoop

/-! ## Fragmentation is invisible -/

/-- The bytes of each message are parsed, in order and once each; the loop stops at the close, and not
    before; and the same messages split otherwise, in a buffer of whatever contents and size, come to
    the same: the same messages processed, the same errors sent and the same server. -/
structure Transparent (h : MessageHandling Server ClientMessage) (buffer : ReceiveBuffer size)
    (server : Server) (messages : List (TextMessage size))
    (closing : Option (List (SocketEvent size))) : Prop where
  parsed : (ReceiveLoop.receiveLoopAsync h buffer server (received messages closing)).serving.parsed =
    messages.map (·.bytes)
  stops : (ReceiveLoop.receiveLoopAsync h buffer server (received messages closing)).point =
    if closing.isSome then .ended .closed else .first
  same : ∀ {size' : Nat} (buffer' : ReceiveBuffer size') (messages' : List (TextMessage size'))
    (closing' : Option (List (SocketEvent size'))),
    messages'.map (·.bytes) = messages.map (·.bytes) →
      (ReceiveLoop.receiveLoopAsync h buffer' server (received messages' closing')).serving =
        (ReceiveLoop.receiveLoopAsync h buffer server (received messages closing)).serving

/-- **Fragmentation is invisible**, if the two deserialisers agree and the socket stays open until the
    client closes it. -/
theorem fragmentation_invisible (h : MessageHandling Server ClientMessage)
    (hagree : ∀ bytes, h.deserializeAsync bytes = h.deserialize bytes) (hstays : StaysOpen h)
    (buffer : ReceiveBuffer size) (server : Server) (hopen : h.isOpen server = true)
    (messages : List (TextMessage size)) (closing : Option (List (SocketEvent size))) :
    Transparent h buffer server messages closing := by
  obtain ⟨_, hloop⟩ := ReceiveLoop.receiveLoopAsync_served hagree hstays buffer hopen messages closing
  constructor
  · rw [hloop]
    exact served_parsed h server _
  · rw [hloop]
  · intro size' buffer' messages' closing' hsame
    obtain ⟨_, hloop'⟩ :=
      ReceiveLoop.receiveLoopAsync_served hagree hstays buffer' hopen messages' closing'
    rw [hloop, hloop', hsame]

/-! ## A message in two frames, and in one -/

/-- The text of a message of type "ping". -/
def pingStart : List UInt8 := [0x7b, 0x22, 0x74, 0x79, 0x70, 0x65, 0x22]
def pingEnd : List UInt8 := [0x3a, 0x22, 0x70, 0x69, 0x6e, 0x67, 0x22, 0x7d]

/-- Its deserialisers, and a server that does nothing with it. -/
def pingHandling : MessageHandling Unit String where
  deserialize bytes := if bytes = pingStart ++ pingEnd then .message "ping" else .jsonException
  deserializeAsync bytes := if bytes = pingStart ++ pingEnd then .message "ping" else .jsonException
  processMessage server _ := (server, .done)
  isOpen _ := true

/-- A buffer nobody has used yet. -/
def clearedBuffer : ReceiveBuffer 4096 := ⟨List.replicate 4096 0, List.length_replicate, Nat.le_refl _⟩

/-- The message twice: in two frames, and in one. -/
def pings : List (TextMessage 4096) :=
  [⟨[⟨pingStart, by decide⟩], ⟨pingEnd, by decide⟩⟩,
    ⟨[], ⟨pingStart ++ pingEnd, by decide⟩⟩]

theorem pings_invisible : Transparent pingHandling clearedBuffer () pings (some []) :=
  fragmentation_invisible pingHandling (fun _ => rfl) (fun _ _ _ => rfl) clearedBuffer () rfl pings
    (some [])

end HexWar
