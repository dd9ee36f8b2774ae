import CipherEngine.Context.Basic
import CipherEngine.Catalog.Builtin

/-!
# Streaming a context over a reader and a writer

The stream driver runs a context over its input in chunks of `buffer_blocks` blocks and
writes each transformed chunk as soon as it is done.  Padding and the length trailer are
applied once, at the end of the input, so the bytes written are those a single call on the
whole input would return.

* Encryption reads full chunks and transforms them as they come; the first short chunk
  (possibly empty) is the last, and is padded like a whole buffer would be.
* Decryption in a block mode keeps one chunk in hand: a chunk is the last when it is short
  or when less than one block follows it, and only the last one has its trailer read.
* Decryption in a byte mode transforms chunks as they come.

The input is a `Source`: the answers its reads will give, in order.  A read may hand out
fewer bytes than asked, report an interruption (the read is then retried), report the end
of the input, or fail.  The output is a `Sink` that takes a bounded or an unbounded number
of bytes; when a write goes past the bound, the bytes that fit are written and the write
fails.  A failure stops the stream, and what was written stays written.
-/

set_option autoImplicit false
set_option linter.unusedVariables false

namespace CipherEngine

/-! ## 1. Sources -/

/-- The answer to one read. -/
inductive ReadEvent where
  /-- Some bytes; none means the reader reports the end of its input. -/
  | bytes (b : Bytes)
  /-- The read was interrupted and may be tried again. -/
  | interrupted
  /-- The read failed. -/
  | failure (fault : IoFault)
  deriving DecidableEq, Repr

/-- An input, as the answers its reads give in order; once they run out, every read
reports the end. -/
abbrev Source := List ReadEvent

namespace Source

/-- The number of bytes a source still holds. -/
def byteCount : Source → Nat
  | [] => 0
  | .bytes b :: rest => b.length + byteCount rest
  | _ :: rest => byteCount rest

/-- Reads until `need` more bytes are held, the source reports its end, or a read fails;
`held` holds the bytes read so far, the latest first, and so does the answer.
Interrupted reads are tried again.  Bytes that do not fit stay in the source.  Only the
bytes taken are walked over, so a long answer is read in time linear in the bytes taken. -/
def fillRev (need : Nat) (held : Bytes) : Source → Except IoFault Bytes × Source
  | [] => (.ok held, [])
  | e :: rest =>
    if need = 0 then (.ok held, e :: rest)
    else
      match e with
      | .interrupted => fillRev need held rest
      | .failure f => (.error f, rest)
      | .bytes b =>
        if b.isEmpty then (.ok held, rest)
        else
          let taken := b.take need
          let left := b.drop need
          if left.isEmpty then
            if taken.length < need then fillRev (need - taken.length) (taken.reverseAux held) rest
            else (.ok (taken.reverseAux held), rest)
          else (.ok (taken.reverseAux held), .bytes left :: rest)

/-- Reads into an empty buffer of `cap` bytes, until it is full, the source reports its
end, or a read fails. -/
def fill (cap : Nat) (src : Source) : Except IoFault Bytes × Source :=
  let (r, rest) := fillRev cap [] src
  (r.map List.reverse, rest)

/-- What reads that fill the buffer take from the source: the bytes held and the bytes left
add up to the bytes there were. -/
theorem byteCount_fillRev (need : Nat) (held : Bytes) (src : Source) (b : Bytes) (rest : Source)
    (h : fillRev need held src = (.ok b, rest)) :
    rest.byteCount + b.length = src.byteCount + held.length := by
  induction src generalizing need held with
  | nil => simp [fillRev] at h; obtain ⟨rfl, rfl⟩ := h; simp [byteCount]
  | cons e es ih =>
    unfold fillRev at h
    by_cases hc : need = 0
    · simp [hc] at h; obtain ⟨rfl, rfl⟩ := h; rfl
    · simp only [hc, if_false] at h
      cases e with
      | interrupted => have := ih need held h; simp [byteCount]; omega
      | failure f => simp at h
      | bytes x =>
        by_cases he : x.isEmpty
        · simp [he] at h; obtain ⟨rfl, rfl⟩ := h
          simp [List.isEmpty_iff] at he; subst he; simp [byteCount]
        · simp only [he, Bool.false_eq_true, if_false] at h
          have hsum : (x.take need).length + (x.drop need).length = x.length := by
            simp only [List.length_take, List.length_drop]; omega
          by_cases hl : (x.drop need).isEmpty
          · simp only [hl, if_true] at h
            have hx : x.length ≤ need := by simpa [List.isEmpty_iff] using hl
            by_cases hlt : (x.take need).length < need
            · simp only [hlt, if_true] at h
              have := ih _ _ h
              simp [byteCount, List.reverseAux_eq] at this ⊢; omega
            · simp only [hlt, if_false] at h
              obtain ⟨rfl, rfl⟩ := h
              simp only [List.length_take] at hlt
              simp [byteCount, List.reverseAux_eq]; omega
          · simp only [hl, Bool.false_eq_true, if_false] at h
            obtain ⟨rfl, rfl⟩ := h
            simp only [byteCount, List.reverseAux_eq, List.length_append, List.length_reverse]
            omega

/-- What a read that fills the buffer takes from the source: the bytes handed out and
the bytes left add up to the bytes there were. -/
theorem byteCount_fill (cap : Nat) (src : Source) (b : Bytes) (rest : Source)
    (h : fill cap src = (.ok b, rest)) : rest.byteCount + b.length = src.byteCount := by
  unfold fill at h
  match hr : fillRev cap [] src with
  | (.ok r, rest') =>
    rw [hr] at h
    simp only [Except.map, Prod.mk.injEq, Except.ok.injEq] at h
    obtain ⟨rfl, rfl⟩ := h
    have := byteCount_fillRev cap [] src r rest' hr
    simpa using this
  | (.error f, rest') => rw [hr] at h; simp [Except.map] at h

/-- A reader over `data` that hands out at most `step` bytes a read (when given and not
zero), reports an interruption before each read, and, when `failAt` is given, fails once
that many bytes have been handed out. A step of zero sets no bound: a reader that always
handed out nothing would read as an empty input, which is not what a zero step asks for. -/
def scripted (data : Bytes) (step failAt : Option Nat) : Source :=
  let avail := match failAt with
    | some n => data.take n
    | none => data
  let stops : Source := match failAt with
    | some n => if n ≤ data.length then [.failure .readFailed] else []
    | none => []
  match step with
  | some (k + 1) =>
    (Bytes.chunks (k + 1) avail).flatMap (fun p => [.interrupted, .bytes p]) ++ stops
  | _ => (if avail.isEmpty then [] else [.bytes avail]) ++ stops

end Source

/-! ## 2. Sinks -/

/-- An output: the bytes written so far, the latest first, and how many more it takes, if
bounded. -/
structure Sink where
  latestFirst : Bytes
  room : Option Nat
  deriving DecidableEq, Repr

namespace Sink

/-- An empty output taking at most `capacity` bytes. -/
def bounded (capacity : Option Nat) : Sink := ⟨[], capacity⟩

/-- The bytes written, first byte first. -/
def written (s : Sink) : Bytes := s.latestFirst.reverse

/-- Writes all of a buffer; past the bound, what fits is written and the write fails. -/
def writeAll (s : Sink) (b : Bytes) : Except IoFault Unit × Sink :=
  match s.room with
  | none => (.ok (), ⟨b.reverseAux s.latestFirst, none⟩)
  | some room =>
    if b.length ≤ room then (.ok (), ⟨b.reverseAux s.latestFirst, some (room - b.length)⟩)
    else (.error .writeFailed, ⟨(b.take room).reverseAux s.latestFirst, some 0⟩)

@[simp] theorem written_bounded (capacity : Option Nat) : (bounded capacity).written = [] := rfl

/-- A write adds to the output as much of the buffer as there is room for. -/
theorem written_writeAll (s : Sink) (b : Bytes) :
    (s.writeAll b).2.written = s.written ++ b.take (s.room.getD b.length) := by
  unfold writeAll written
  split
  · simp_all [List.reverseAux_eq]
  · rename_i room h
    split <;> simp_all [List.reverseAux_eq, List.take_of_length_le]

end Sink

/-! ## 3. The driver -/

/-- How a stream is run: with or without the length trailer, and how many blocks a chunk
holds (the default when none is given). -/
structure StreamOptions where
  fixlength : Bool
  bufferBlocks : Option Nat
  deriving DecidableEq, Repr

/-- Encryption writes the length trailer by default. -/
def StreamOptions.forEncrypt : StreamOptions := ⟨true, none⟩

/-- Decryption reads no length trailer by default. -/
def StreamOptions.forDecrypt : StreamOptions := ⟨false, none⟩

/-- What a stream run ends with: its answer, the context and the output. -/
structure StreamRun where
  result : Except EngineError Unit
  context : Context
  sink : Sink

/-- The largest chunk a buffer can hold: the machine word's range. -/
def maxChunk : Nat := MachineWord.max

namespace Context

/-- Encrypts full chunks as they come; the first short one is padded and is the last. -/
def encryptChunks (chunk unit : Nat) (fixlength : Bool) (ctx : Context) (src : Source)
    (sink : Sink) : StreamRun :=
  match h : src.fill chunk with
  | (.error f, _) => ⟨.error (.io f), ctx, sink⟩
  | (.ok buf, rest) =>
    if hfull : buf.length = chunk ∧ chunk ≠ 0 then
      match ctx.transformBuffer .encrypt buf with
      | (.error e, ctx) => ⟨.error e, ctx, sink⟩
      | (.ok out, ctx) =>
        match sink.writeAll out with
        | (.error f, sink) => ⟨.error (.io f), ctx, sink⟩
        | (.ok (), sink) => encryptChunks chunk unit fixlength ctx rest sink
    else
      match ctx.transformBuffer .encrypt (Padding.pad buf unit fixlength) with
      | (.error e, ctx) => ⟨.error e, ctx, sink⟩
      | (.ok out, ctx) =>
        let (r, sink) := sink.writeAll out
        ⟨r.mapError .io, ctx, sink⟩
termination_by src.byteCount
decreasing_by
  have := Source.byteCount_fill chunk src buf rest h
  omega

/-- Decrypts the whole units of a chunk and writes them, cut by the trailer when the chunk
is the last and the trailer is read. -/
def emitDecrypted (unit : Nat) (fixlength isLast : Bool) (ctx : Context) (current : Bytes)
    (sink : Sink) : StreamRun :=
  let len := Padding.wholeUnits current.length unit
  match ctx.transformBuffer .decrypt (current.take len) with
  | (.error e, ctx) => ⟨.error e, ctx, sink⟩
  | (.ok out, ctx) =>
    let keep := if isLast && fixlength then Padding.recoveredLen out unit else len
    let (r, sink) := sink.writeAll (out.take keep)
    ⟨r.mapError .io, ctx, sink⟩

/-- Decrypts in a block mode with one chunk in hand: the chunk in hand is the last when it
is short or when less than one unit follows it. -/
def decryptBlockChunks (chunk unit : Nat) (fixlength : Bool) (ctx : Context) (current : Bytes)
    (src : Source) (sink : Sink) : StreamRun :=
  if current.length < chunk then emitDecrypted unit fixlength true ctx current sink
  else
    match h : src.fill chunk with
    | (.error f, _) => ⟨.error (.io f), ctx, sink⟩
    | (.ok next, rest) =>
      if hlast : next.length < unit ∨ next.length = 0 then
        emitDecrypted unit fixlength true ctx current sink
      else
        let run := emitDecrypted unit fixlength false ctx current sink
        match run.result with
        | .error _ => run
        | .ok () => decryptBlockChunks chunk unit fixlength run.context next rest run.sink
termination_by src.byteCount
decreasing_by
  have := Source.byteCount_fill chunk src next rest h
  omega

/-- Decrypts in a byte mode, chunk by chunk, until a short chunk. -/
def decryptByteChunks (chunk : Nat) (ctx : Context) (src : Source) (sink : Sink) : StreamRun :=
  match h : src.fill chunk with
  | (.error f, _) => ⟨.error (.io f), ctx, sink⟩
  | (.ok buf, rest) =>
    match ctx.transformBuffer .decrypt buf with
    | (.error e, ctx) => ⟨.error e, ctx, sink⟩
    | (.ok out, ctx) =>
      match sink.writeAll out with
      | (.error f, sink) => ⟨.error (.io f), ctx, sink⟩
      | (.ok (), sink) =>
        if hshort : buf.length < chunk ∨ chunk = 0 then ⟨.ok (), ctx, sink⟩
        else decryptByteChunks chunk ctx rest sink
termination_by src.byteCount
decreasing_by
  have := Source.byteCount_fill chunk src buf rest h
  omega

/-- Streams a source through the context into a sink.  The chunk size is checked first,
then the direction is bound as for a single call. -/
def transformStream (ctx : Context) (dir : Direction) (opts : StreamOptions) (src : Source)
    (sink : Sink) : StreamRun :=
  let blocks := opts.bufferBlocks.getD Builtin.defaultBufferBlocks
  if blocks = 0 then ⟨.error (.invalidParameter "buffer_blocks" "must be at least 1"), ctx, sink⟩
  else
    let chunk := blocks * max ctx.algorithm.blockSize 1
    if maxChunk < chunk then
      ⟨.error (.invalidParameter "buffer_blocks" "chunk size overflows"), ctx, sink⟩
    else
      match ctx.begin dir with
      | .error e => ⟨.error e, ctx, sink⟩
      | .ok ctx =>
        let unit := ctx.unitLen
        match dir with
        | .encrypt => encryptChunks chunk unit opts.fixlength ctx src sink
        | .decrypt =>
          if 1 < unit then
            match src.fill chunk with
            | (.error f, _) => ⟨.error (.io f), ctx, sink⟩
            | (.ok current, rest) => decryptBlockChunks chunk unit opts.fixlength ctx current rest sink
          else decryptByteChunks chunk ctx src sink

end Context

end CipherEngine
