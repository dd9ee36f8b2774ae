import CipherEngine.Proofs.Context.Entry
import CipherEngine.Proofs.Context.Total

/-!
# What a stream has written when it fails

A stream writes each chunk as soon as it is transformed, so a failure part way leaves the
output holding what was written until then.  This module shows that what is written is
always a prefix of the right answer, the output one call of `encrypt` or `decrypt` returns
(`Context.transformStream_io_failure`).

* A source that delivers `y` and then fails makes the stream fail with an input-output
  error.  By then the stream has written the transform of a prefix `z` of `y` made of whole
  chunks; in a block decryption, a whole chunk of `y` still follows `z`, since a chunk is
  written only once more ciphertext is known to follow it.  So what is written begins every
  answer for an input that extends `y`: the trailer, read only from the last unit, cannot
  cut into it (`Context.transformStream_failsAfter`, `Context.decrypt_extends`).
* An output that takes `n` bytes and refuses the rest is as good as writing the whole answer
  at once: the stream fails exactly when the answer is longer than `n`, and then the output
  holds its first `n` bytes (`Context.transformStream_writes`).

The first rests on reading: a source that delivers `y` before other answers is read from
`y` first (`Source.fillRev_append_of_le`).  The second rests on the loop lemmas, which hold
for any output: each loop writes what one write of the whole answer would, up to the first
refusal (`Context.encryptChunks_writes` and its two siblings).
-/

set_option autoImplicit false

namespace CipherEngine

/-! ## 1. Sources that deliver some bytes and then fail -/

namespace Source

/-- A source that hands out `y` in reads of any sizes, with interruptions anywhere between
them, and then fails. -/
def FailsAfter (src : Source) (y : Bytes) : Prop :=
  ∃ (pre : Source) (fault : IoFault) (after : Source),
    src = pre ++ .failure fault :: after ∧ pre.Delivers y

/-- A source that fails after `y` fills a buffer no longer than `y` with the first bytes of
`y`, and what is left fails after the rest. -/
theorem fill_of_failsAfter_of_le {src : Source} {y : Bytes} (h : src.FailsAfter y) {cap : Nat}
    (hcap : cap ≤ y.length) :
    ∃ rest, src.fill cap = (.ok (y.take cap), rest) ∧ rest.FailsAfter (y.drop cap) := by
  obtain ⟨pre, fault, after, rfl, hpre⟩ := h
  obtain ⟨rest, hf, hd⟩ := fillRev_append_of_le hpre (.failure fault :: after) hcap []
  exact ⟨rest ++ .failure fault :: after, by simp [fill, hf, Except.map],
    rest, fault, after, rfl, hd⟩

/-- A buffer longer than what the source delivers before it fails is not filled: the read
fails. -/
theorem fill_of_failsAfter_of_lt {src : Source} {y : Bytes} (h : src.FailsAfter y) {cap : Nat}
    (hcap : y.length < cap) : ∃ fault rest, src.fill cap = (.error fault, rest) := by
  obtain ⟨pre, fault, after, rfl, hpre⟩ := h
  refine ⟨fault, after, ?_⟩
  simp [fill, fillRev_append_of_lt hpre _ hcap, fillRev, show cap - y.length ≠ 0 by omega,
    Except.map]

/-- What a read from a source that fails after `y` can give, when it gives bytes: a full
buffer of the first bytes of `y`, with a source that fails after the rest. -/
theorem FailsAfter.fill_eq {src : Source} {y : Bytes} (h : src.FailsAfter y) {cap : Nat}
    {buf : Bytes} {rest : Source} (hf : src.fill cap = (.ok buf, rest)) :
    cap ≤ y.length ∧ buf = y.take cap ∧ rest.FailsAfter (y.drop cap) := by
  by_cases hcap : cap ≤ y.length
  · obtain ⟨rest', hf', hd⟩ := fill_of_failsAfter_of_le h hcap
    rw [hf'] at hf
    simp only [Prod.mk.injEq, Except.ok.injEq] at hf
    obtain ⟨rfl, rfl⟩ := hf
    exact ⟨hcap, rfl, hd⟩
  · obtain ⟨fault, rest', hf'⟩ := fill_of_failsAfter_of_lt h (show y.length < cap by omega)
    rw [hf'] at hf
    simp at hf

end Source

/-! ## 2. Outputs with room for some bytes -/

namespace Sink

@[simp] theorem writeAll_nil (s : Sink) : s.writeAll [] = (.ok (), s) := by
  obtain ⟨latestFirst, room⟩ := s
  cases room <;> simp [writeAll]

/-- An output with room for `n` more bytes takes a buffer exactly when it fits. -/
theorem writeAll_fst_of_room {s : Sink} {n : Nat} (hs : s.room = some n) (b : Bytes) :
    (s.writeAll b).1 = if b.length ≤ n then .ok () else .error .writeFailed := by
  simp only [writeAll, hs]
  split <;> rfl

end Sink

/-! ## 3. Runs that stop at a failure -/

namespace StreamRun

/-- A run that stopped on a failed read or write after offering `out` to `sink`. -/
def FailsWriting (run : StreamRun) (sink : Sink) (out : Bytes) : Prop :=
  (∃ fault, run.result = .error (.io fault)) ∧ run.sink = (sink.writeAll out).2

/-- Offering more after a write that succeeded is offering everything at once. -/
theorem FailsWriting.append {run : StreamRun} {s s₁ : Sink} {a b : Bytes}
    (h : s.writeAll a = (.ok (), s₁)) (hrun : run.FailsWriting s₁ b) :
    run.FailsWriting s (a ++ b) :=
  ⟨hrun.1, by rw [hrun.2, Sink.writeAll_append_of_ok h]⟩

theorem failsWriting_of_error {s s₁ : Sink} {a : Bytes} {e : IoFault}
    (h : s.writeAll a = (.error e, s₁)) (ctx : Context) :
    (⟨.error (.io e), ctx, s₁⟩ : StreamRun).FailsWriting s a :=
  ⟨⟨e, rfl⟩, by rw [h]⟩

/-- A read that fails before anything is offered leaves the output as it was. -/
theorem failsWriting_nil (fault : IoFault) (ctx : Context) (s : Sink) :
    (⟨.error (.io fault), ctx, s⟩ : StreamRun).FailsWriting s [] :=
  ⟨⟨fault, rfl⟩, by rw [Sink.writeAll_nil]⟩

end StreamRun

/-! ## 4. Over a source that fails, the loops write the transform of a prefix -/

namespace Context

variable {unit : Nat}

theorem Ready.transformBuffer_nil {ctx : Context} (hr : ctx.Ready unit) (dir : Direction) :
    ctx.transformBuffer dir [] = (.ok [], ctx) := by
  simp [Context.transformBuffer, hr.keyed]

section Fails

variable {chunk : Nat} (fixlength : Bool)

/-- A prefix of whole chunks, followed by a prefix of whole chunks of the rest, is a prefix
of whole chunks. -/
theorem prefix_take_append {y z : Bytes} (hz : z <+: y.drop chunk) :
    y.take chunk ++ z <+: y := by
  have h := (List.prefix_append_right_inj (y.take chunk)).mpr hz
  rwa [List.take_append_drop] at h

/-- **Over a source that fails after `y`, the encryption loop fails**, having written the
transform of a prefix of `y` made of whole chunks, or part of it if a write failed. -/
theorem encryptChunks_failsAfter (hchunk : 0 < chunk) (hmul : chunk % unit = 0) (ctx : Context)
    (src : Source) (sink : Sink) {y : Bytes} (hr : ctx.Ready unit) (hy : src.FailsAfter y) :
    ∃ z out ctx', z <+: y ∧ z.length % unit = 0 ∧
      ctx.transformBuffer .encrypt z = (.ok out, ctx') ∧
      (encryptChunks chunk unit fixlength ctx src sink).FailsWriting sink out := by
  fun_induction encryptChunks chunk unit fixlength ctx src sink generalizing y with
  | case1 ctx src sink f rest hfill =>
    exact ⟨[], [], ctx, List.nil_prefix, Nat.zero_mod _, hr.transformBuffer_nil _,
      StreamRun.failsWriting_nil f ctx sink⟩
  | case2 ctx src sink buf rest hfill hfull e ctx' htb =>
    obtain ⟨o, c, hok, -⟩ := hr.transformBuffer_ok .encrypt (by rw [hfull.1]; exact hmul)
    simp [hok] at htb
  | case3 ctx src sink buf rest hfill hfull out ctx₁ htb f sink₁ hwr =>
    obtain ⟨-, rfl, -⟩ := hy.fill_eq hfill
    exact ⟨y.take chunk, out, ctx₁, List.take_prefix _ _, by rw [hfull.1]; exact hmul, htb,
      StreamRun.failsWriting_of_error hwr _⟩
  | case4 ctx src sink buf rest hfill hfull out ctx₁ htb sink₁ hwr ih =>
    obtain ⟨-, rfl, hd⟩ := hy.fill_eq hfill
    obtain ⟨z, o₂, ctx₂, hz, hzmod, htb₂, hloop⟩ := ih (hr.transformBuffer htb) hd
    have hcmod : (y.take chunk).length % unit = 0 := by rw [hfull.1]; exact hmul
    refine ⟨y.take chunk ++ z, out ++ o₂, ctx₂, prefix_take_append hz, ?_,
      hr.transformBuffer_chain hcmod hzmod htb htb₂, hloop.append hwr⟩
    rw [List.length_append, Nat.add_mod, hcmod, hzmod, Nat.zero_mod]
  | case5 ctx src sink buf rest hfill hshort e ctx' htb =>
    obtain ⟨hle, rfl, -⟩ := hy.fill_eq hfill
    rw [List.length_take] at hshort
    omega
  | case6 ctx src sink buf rest hfill hshort out ctx' htb r sink' hwr =>
    obtain ⟨hle, rfl, -⟩ := hy.fill_eq hfill
    rw [List.length_take] at hshort
    omega

/-- **Over a source that fails after `y`, the block decryption loop fails**, having written
the deciphered prefix of `y` made of whole chunks, each followed in `y` by another full
chunk, or part of it if a write failed.  The invariant: the chunk in hand is the first full
chunk of `y`. -/
theorem decryptBlockChunks_failsAfter (hchunk : 0 < chunk) (hmul : chunk % unit = 0)
    (ctx : Context) (current : Bytes) (src : Source) (sink : Sink) {y : Bytes}
    (hr : ctx.Ready unit) (hcur : current = y.take chunk) (hlen : chunk ≤ y.length)
    (hy : src.FailsAfter (y.drop chunk)) :
    ∃ z out ctx', z <+: y ∧ z.length % unit = 0 ∧ z.length + chunk ≤ y.length ∧
      ctx.transformBuffer .decrypt z = (.ok out, ctx') ∧
      (decryptBlockChunks chunk unit fixlength ctx current src sink).FailsWriting sink out := by
  have hle : unit ≤ chunk := Nat.le_of_dvd hchunk (Nat.dvd_of_mod_eq_zero hmul)
  fun_induction decryptBlockChunks chunk unit fixlength ctx current src sink generalizing y with
  | case1 ctx current src sink hshort =>
    subst hcur
    rw [List.length_take] at hshort
    omega
  | case2 ctx current src sink hfull f rest hfill =>
    exact ⟨[], [], ctx, List.nil_prefix, Nat.zero_mod _, by simpa using hlen,
      hr.transformBuffer_nil _, StreamRun.failsWriting_nil f ctx sink⟩
  | case3 ctx current src sink hfull next rest hfill hlast =>
    obtain ⟨hle', rfl, -⟩ := hy.fill_eq hfill
    rw [List.length_drop] at hle'
    rw [List.length_take, List.length_drop] at hlast
    omega
  | case4 ctx current src sink hfull next rest hfill hnotlast run e =>
    rename_i herr
    subst hcur
    obtain ⟨hle', rfl, -⟩ := hy.fill_eq hfill
    rw [List.length_drop] at hle'
    obtain ⟨o₁, ctx₁, htb₁, ⟨f, s₁, hw, hrun⟩ | ⟨s₁, hw, hrun⟩⟩ := emitDecrypted_full fixlength ctx
      (show (y.take chunk).length = chunk by rw [List.length_take]; omega) hmul hr sink
    · have hrun' : run = ⟨.error (.io f), ctx₁, s₁⟩ := hrun
      rw [hrun']
      refine ⟨y.take chunk, o₁, ctx₁, List.take_prefix _ _, ?_, ?_, htb₁,
        StreamRun.failsWriting_of_error hw _⟩
      · rw [List.length_take, Nat.min_eq_left hlen]
        exact hmul
      · rw [List.length_take]
        omega
    · simp [run, hrun] at herr
  | case5 ctx current src sink hfull next rest hfill hnotlast run hok =>
    rename_i ih
    subst hcur
    obtain ⟨hle', rfl, hd⟩ := hy.fill_eq hfill
    rw [List.length_drop] at hle'
    obtain ⟨o₁, ctx₁, htb₁, ⟨f, s₁, hw, hrun⟩ | ⟨s₁, hw, hrun⟩⟩ := emitDecrypted_full fixlength ctx
      (show (y.take chunk).length = chunk by rw [List.length_take]; omega) hmul hr sink
    · simp [run, hrun] at hok
    · have hrun' : run = ⟨.ok (), ctx₁, s₁⟩ := hrun
      rw [hrun'] at ih ⊢
      obtain ⟨z, o₂, ctx₂, hz, hzmod, hzlen, htb₂, hloop⟩ :=
        ih (hr.transformBuffer htb₁) rfl (by rw [List.length_drop]; omega) hd
      rw [List.length_drop] at hzlen
      have hcmod : (y.take chunk).length % unit = 0 := by
        rw [List.length_take, Nat.min_eq_left hlen]
        exact hmul
      refine ⟨y.take chunk ++ z, o₁ ++ o₂, ctx₂, prefix_take_append hz, ?_, ?_,
        hr.transformBuffer_chain hcmod hzmod htb₁ htb₂, hloop.append hw⟩
      · rw [List.length_append, Nat.add_mod, hcmod, hzmod, Nat.zero_mod]
      · rw [List.length_append, List.length_take]
        omega

/-- **Over a source that fails after `y`, the byte decryption loop fails**, having written
the deciphered prefix of `y` read so far, or part of it if a write failed. -/
theorem decryptByteChunks_failsAfter (hchunk : 0 < chunk) (ctx : Context) (src : Source)
    (sink : Sink) {y : Bytes} (hr : ctx.Ready 1) (hy : src.FailsAfter y) :
    ∃ z out ctx', z <+: y ∧ ctx.transformBuffer .decrypt z = (.ok out, ctx') ∧
      (decryptByteChunks chunk ctx src sink).FailsWriting sink out := by
  fun_induction decryptByteChunks chunk ctx src sink generalizing y with
  | case1 ctx src sink f rest hfill =>
    exact ⟨[], [], ctx, List.nil_prefix, hr.transformBuffer_nil _,
      StreamRun.failsWriting_nil f ctx sink⟩
  | case2 ctx src sink buf rest hfill e ctx' htb =>
    obtain ⟨o, c, hok, -⟩ := hr.transformBuffer_ok .decrypt (Nat.mod_one buf.length)
    simp [hok] at htb
  | case3 ctx src sink buf rest hfill out ctx₁ htb f sink₁ hwr =>
    obtain ⟨-, rfl, -⟩ := hy.fill_eq hfill
    exact ⟨y.take chunk, out, ctx₁, List.take_prefix _ _, htb,
      StreamRun.failsWriting_of_error hwr _⟩
  | case4 ctx src sink buf rest hfill out ctx' htb sink' hwr hshort =>
    obtain ⟨hle, rfl, -⟩ := hy.fill_eq hfill
    rw [List.length_take] at hshort
    omega
  | case5 ctx src sink buf rest hfill out ctx₁ htb sink₁ hwr hfull ih =>
    obtain ⟨-, rfl, hd⟩ := hy.fill_eq hfill
    obtain ⟨z, o₂, ctx₂, hz, htb₂, hloop⟩ := ih (hr.transformBuffer htb) hd
    exact ⟨y.take chunk ++ z, out ++ o₂, ctx₂, prefix_take_append hz,
      hr.transformBuffer_chain (Nat.mod_one _) (Nat.mod_one _) htb htb₂, hloop.append hwr⟩

end Fails

/-! ## 5. A stream against one call -/

/-- A reachable keyed context that may start `dir` is ready once `dir` is bound. -/
theorem Reachable.ready_bound {ctx : Context} (hreach : ctx.Reachable) (hk : ctx.isKeyed = true)
    {dir : Direction} (hdir : ctx.direction = none ∨ ctx.direction = some dir) :
    ({ ctx with direction := some dir } : Context).Ready ctx.unitLen :=
  ⟨hk, hreach.coherent.keeps (keeps_begin (begin_eq hk hdir)), rfl⟩

/-- What one call enciphers of `z ++ t` begins with what the bound context makes of `z`, for
`z` of whole units. -/
theorem encrypt_extends {ctx : Context} (hreach : ctx.Reachable) (hk : ctx.isKeyed = true)
    (hdir : ctx.direction = none ∨ ctx.direction = some .encrypt) {z t : Bytes}
    (hz : z.length % ctx.unitLen = 0) (hlen : (z ++ t).length ≤ MachineWord.maxBuffer)
    {o : Bytes} {c : Context}
    (htb : ({ ctx with direction := some .encrypt } : Context).transformBuffer .encrypt z =
      (.ok o, c)) (f : Bool) :
    ∃ out, (ctx.encrypt (z ++ t) f).1 = .ok out ∧ o <+: out := by
  have hc := hreach.coherent
  have hr := hreach.ready_bound hk hdir
  have hw : z.length + t.length + ctx.unitLen ≤ MachineWord.max := by
    have := hc.unitLen_le
    have := MachineWord.maxBuffer_add_le
    simp only [List.length_append] at hlen
    omega
  -- the padding of `z ++ t` is `z` followed by the padding of `t`
  have hpad : Padding.pad (z ++ t) ctx.unitLen f = z ++ Padding.pad t ctx.unitLen f :=
    Padding.pad_append f hz hw
  obtain ⟨ob, c₂, -, h₁₂⟩ :=
    hr.transformBuffer_then hz (Padding.length_pad_mod hr.unit_pos t f (by omega)) htb
  exact ⟨o ++ ob, by rw [encrypt_eq_transformBuffer hk hdir, hpad, h₁₂], List.prefix_append _ _⟩

/-- What one call deciphers of `z ++ t` begins with what the bound context makes of `z`, for
`z` of whole units, when the trailer cannot cut into it: in a block mode at least one unit
follows `z`, or `z` is empty. -/
theorem decrypt_extends {ctx : Context} (hreach : ctx.Reachable) (hk : ctx.isKeyed = true)
    (hdir : ctx.direction = none ∨ ctx.direction = some .decrypt) {z t : Bytes}
    (hz : z.length % ctx.unitLen = 0)
    (hcut : z = [] ∨ ctx.unitLen = 1 ∨ ctx.unitLen ≤ t.length) {o : Bytes} {c : Context}
    (htb : ({ ctx with direction := some .decrypt } : Context).transformBuffer .decrypt z =
      (.ok o, c)) (f : Bool) :
    ∃ out, (ctx.decrypt (z ++ t) f).1 = .ok out ∧ o <+: out := by
  have hr := hreach.ready_bound hk hdir
  have hu := hr.unit_pos
  have hwle := Padding.wholeUnits_le t.length ctx.unitLen
  have htake : (z ++ t).take (Padding.wholeUnits (z ++ t).length ctx.unitLen) =
      z ++ t.take (Padding.wholeUnits t.length ctx.unitLen) := by
    rw [List.length_append, Padding.wholeUnits_add _ hz, List.take_append,
      List.take_of_length_le (by omega), Nat.add_sub_cancel_left]
  have hrest : (t.take (Padding.wholeUnits t.length ctx.unitLen)).length =
      Padding.wholeUnits t.length ctx.unitLen := by
    rw [List.length_take, Nat.min_eq_left hwle]
  have hrestmod : (t.take (Padding.wholeUnits t.length ctx.unitLen)).length % ctx.unitLen = 0 := by
    rw [hrest]
    exact Padding.wholeUnits_mod hu _
  obtain ⟨ob, c₂, h₂, h₁₂⟩ := hr.transformBuffer_then hz hrestmod htb
  refine ⟨_, by rw [decrypt_of_transformBuffer hk hdir (htake ▸ h₁₂) f], ?_⟩
  split
  · rename_i hcutting
    rcases hcut with rfl | h1 | ht
    · rw [hr.transformBuffer_nil] at htb
      simp only [Prod.mk.injEq, Except.ok.injEq] at htb
      rw [← htb.1]
      exact List.nil_prefix
    · simp [h1] at hcutting
    · have hlen₂ : ctx.unitLen ≤ ob.length := by
        rw [(hr.transformBuffer htb).length_transformBuffer hrestmod h₂, hrest]
        exact Padding.le_wholeUnits hu ht
      rw [Padding.take_recoveredLen_append o hlen₂]
      exact List.prefix_append _ _
  · exact List.prefix_append _ _

/-- **A stream over a source that delivers `x` writes what one call on `x` returns**, into
any output, stopping at the first write that fails; when every byte is taken it ends in the
context that call leaves. -/
theorem transformStream_writes {ctx : Context} (hreach : ctx.Reachable) (hk : ctx.isKeyed = true)
    {dir : Direction} (hdir : ctx.direction = none ∨ ctx.direction = some dir)
    {opts : StreamOptions} (hfit : opts.ChunkFits ctx.algorithm.blockSize) {src : Source}
    {x : Bytes} (hx : src.Delivers x) (hlen : x.length ≤ MachineWord.maxBuffer) (sink : Sink) :
    ∃ out ctx', ctx.single dir x opts.fixlength = (.ok out, ctx') ∧
      (ctx.transformStream dir opts src sink).Writes sink out ctx' := by
  have hbegin := begin_eq hk hdir
  have hc := hreach.coherent
  have hr := hreach.ready_bound hk hdir
  obtain ⟨hpos, hle⟩ := hfit
  have hchunk : 0 < opts.bufferBlocks.getD Builtin.defaultBufferBlocks *
      max ctx.algorithm.blockSize 1 := Nat.mul_pos hpos (by omega)
  have hmul := chunk_mod_unitLen ctx (opts.bufferBlocks.getD Builtin.defaultBufferBlocks)
  cases dir with
  | encrypt =>
    have hw : x.length + ctx.unitLen ≤ MachineWord.max := by
      have := hc.unitLen_le
      have := MachineWord.maxBuffer_add_le
      omega
    obtain ⟨out, ctx', htb, hloop⟩ :=
      encryptChunks_writes opts.fixlength hchunk hmul _ src sink hr hx hw
    refine ⟨out, ctx', by rw [single, encrypt_eq_transformBuffer hk hdir]; exact htb, ?_⟩
    simp only [transformStream, Nat.pos_iff_ne_zero.mp hpos, if_false, Nat.not_lt.mpr hle, hbegin]
    exact hloop
  | decrypt =>
    by_cases hu : 1 < ctx.unitLen
    · obtain ⟨rest, hf, hd⟩ := Source.fill_delivers hx
        (opts.bufferBlocks.getD Builtin.defaultBufferBlocks * max ctx.algorithm.blockSize 1)
      obtain ⟨out, ctx', htb, hloop⟩ :=
        decryptBlockChunks_writes opts.fixlength hchunk hmul hu _ _ rest sink hr rfl hd
      refine ⟨_, ctx', by rw [single]; exact decrypt_of_transformBuffer hk hdir htb _, ?_⟩
      simp only [transformStream, Nat.pos_iff_ne_zero.mp hpos, if_false, Nat.not_lt.mpr hle,
        hbegin, unitLen_withDirection, hu, if_true, hf]
      simpa [hu] using hloop
    · have hone : ctx.unitLen = 1 := by have := hr.unit_pos; omega
      obtain ⟨out, ctx', htb, hloop⟩ :=
        decryptByteChunks_writes hchunk _ src sink ⟨hr.keyed, hr.coherent, hone⟩ hx
      have hwhole : Padding.wholeUnits x.length ctx.unitLen = x.length := by
        simp [Padding.wholeUnits, hone]
      refine ⟨out, ctx', ?_, ?_⟩
      · rw [single, decrypt_of_transformBuffer hk hdir (by rw [hwhole, List.take_length]; exact htb)]
        simp [hone]
      · simp only [transformStream, Nat.pos_iff_ne_zero.mp hpos, if_false, Nat.not_lt.mpr hle,
          hbegin, unitLen_withDirection, hu]
        exact hloop

/-- **A stream over a source that fails after `y` fails**, having written a prefix of what
one call returns for every input that extends `y`. -/
theorem transformStream_failsAfter {ctx : Context} (hreach : ctx.Reachable)
    (hk : ctx.isKeyed = true) {dir : Direction}
    (hdir : ctx.direction = none ∨ ctx.direction = some dir) {opts : StreamOptions}
    (hfit : opts.ChunkFits ctx.algorithm.blockSize) {src : Source} {y : Bytes}
    (hy : src.FailsAfter y) (sink : Sink) :
    ∃ out, (∀ x : Bytes, y <+: x → x.length ≤ MachineWord.maxBuffer →
        ∃ out', (ctx.single dir x opts.fixlength).1 = .ok out' ∧ out <+: out') ∧
      (ctx.transformStream dir opts src sink).FailsWriting sink out := by
  have hbegin := begin_eq hk hdir
  have hr := hreach.ready_bound hk hdir
  obtain ⟨hpos, hle⟩ := hfit
  have hchunk : 0 < opts.bufferBlocks.getD Builtin.defaultBufferBlocks *
      max ctx.algorithm.blockSize 1 := Nat.mul_pos hpos (by omega)
  have hmul := chunk_mod_unitLen ctx (opts.bufferBlocks.getD Builtin.defaultBufferBlocks)
  cases dir with
  | encrypt =>
    obtain ⟨z, out, ctx', hz, hzmod, htb, hrun⟩ :=
      encryptChunks_failsAfter opts.fixlength hchunk hmul _ src sink hr hy
    refine ⟨out, fun x hyx hlen => ?_, ?_⟩
    · obtain ⟨t, rfl⟩ := hz.trans hyx
      exact encrypt_extends hreach hk hdir hzmod hlen htb _
    · simp only [transformStream, Nat.pos_iff_ne_zero.mp hpos, if_false, Nat.not_lt.mpr hle,
        hbegin]
      exact hrun
  | decrypt =>
    by_cases hu : 1 < ctx.unitLen
    · have hunit : ctx.unitLen ≤ opts.bufferBlocks.getD Builtin.defaultBufferBlocks *
          max ctx.algorithm.blockSize 1 := Nat.le_of_dvd hchunk (Nat.dvd_of_mod_eq_zero hmul)
      by_cases hcap : opts.bufferBlocks.getD Builtin.defaultBufferBlocks *
          max ctx.algorithm.blockSize 1 ≤ y.length
      · obtain ⟨rest, hf, hd⟩ := Source.fill_of_failsAfter_of_le hy hcap
        obtain ⟨z, out, ctx', hz, hzmod, hzlen, htb, hrun⟩ :=
          decryptBlockChunks_failsAfter opts.fixlength hchunk hmul _ _ rest sink hr rfl hcap hd
        refine ⟨out, fun x hyx hlen => ?_, ?_⟩
        · obtain ⟨t, rfl⟩ := hz.trans hyx
          have hxlen := hyx.length_le
          rw [List.length_append] at hxlen
          exact decrypt_extends hreach hk hdir hzmod (.inr (.inr (by omega))) htb _
        · simp only [transformStream, Nat.pos_iff_ne_zero.mp hpos, if_false, Nat.not_lt.mpr hle,
            hbegin, unitLen_withDirection, hu, if_true, hf]
          exact hrun
      · obtain ⟨fault, rest, hf⟩ := Source.fill_of_failsAfter_of_lt hy (Nat.lt_of_not_le hcap)
        refine ⟨[], fun x _ _ => ?_, ?_⟩
        · exact decrypt_extends hreach hk hdir (z := []) (Nat.zero_mod _) (.inl rfl)
            (hr.transformBuffer_nil _) _
        · simp only [transformStream, Nat.pos_iff_ne_zero.mp hpos, if_false, Nat.not_lt.mpr hle,
            hbegin, unitLen_withDirection, hu, if_true, hf]
          exact StreamRun.failsWriting_nil fault _ sink
    · have hone : ctx.unitLen = 1 := by have := hr.unit_pos; omega
      obtain ⟨z, out, ctx', hz, htb, hrun⟩ :=
        decryptByteChunks_failsAfter hchunk _ src sink ⟨hr.keyed, hr.coherent, hone⟩ hy
      refine ⟨out, fun x hyx hlen => ?_, ?_⟩
      · obtain ⟨t, rfl⟩ := hz.trans hyx
        exact decrypt_extends hreach hk hdir (by rw [hone]; exact Nat.mod_one _) (.inr (.inl hone))
          htb _
      · simp only [transformStream, Nat.pos_iff_ne_zero.mp hpos, if_false, Nat.not_lt.mpr hle,
          hbegin, unitLen_withDirection, hu]
        exact hrun

/-- **A stream that fails has written a prefix of the right answer.**  From a keyed context
that may start `dir`, with a chunk length the stream takes:
* a source that delivers `y` and then fails makes the stream fail with an input-output error,
  and what it wrote begins the answer of one call on every input that extends `y`;
* a source that delivers `x`, into an output that takes `n` more bytes and refuses the rest,
  makes the stream fail exactly when the answer of one call on `x` is longer than `n`, with a
  refused write; either way the output then holds the first `n` bytes of that answer. -/
theorem transformStream_io_failure {ctx : Context} (hreach : ctx.Reachable)
    (hk : ctx.isKeyed = true) {dir : Direction}
    (hdir : ctx.direction = none ∨ ctx.direction = some dir) {opts : StreamOptions}
    (hfit : opts.ChunkFits ctx.algorithm.blockSize) :
    (∀ (src : Source) (y : Bytes) (sink : Sink), src.FailsAfter y →
      (∃ fault, (ctx.transformStream dir opts src sink).result = .error (.io fault)) ∧
      ∃ w, (ctx.transformStream dir opts src sink).sink.written = sink.written ++ w ∧
        ∀ x : Bytes, y <+: x → x.length ≤ MachineWord.maxBuffer →
          ∃ out, (ctx.single dir x opts.fixlength).1 = .ok out ∧ w <+: out) ∧
    (∀ (src : Source) (x : Bytes) (sink : Sink) (n : Nat), src.Delivers x →
      x.length ≤ MachineWord.maxBuffer → sink.room = some n →
      ∃ out, (ctx.single dir x opts.fixlength).1 = .ok out ∧
        ((ctx.transformStream dir opts src sink).result = .ok () ↔ out.length ≤ n) ∧
        (n < out.length →
          (ctx.transformStream dir opts src sink).result = .error (.io .writeFailed)) ∧
        (ctx.transformStream dir opts src sink).sink.written = sink.written ++ out.take n) := by
  refine ⟨fun src y sink hy => ?_, fun src x sink n hx hlen hroom => ?_⟩
  · obtain ⟨out, hext, hfail, hsink⟩ := transformStream_failsAfter hreach hk hdir hfit hy sink
    refine ⟨hfail, out.take (sink.room.getD out.length),
      by rw [hsink, Sink.written_writeAll], fun x hyx hlen => ?_⟩
    obtain ⟨out', hout', hpre⟩ := hext x hyx hlen
    exact ⟨out', hout', (List.take_prefix _ _).trans hpre⟩
  · obtain ⟨out, ctx', hsingle, hres, hsink, -⟩ :=
      transformStream_writes hreach hk hdir hfit hx hlen sink
    have hanswer : (ctx.transformStream dir opts src sink).result =
        if out.length ≤ n then .ok () else .error (.io .writeFailed) := by
      rw [hres, Sink.writeAll_fst_of_room hroom]
      split <;> rfl
    refine ⟨out, by rw [hsingle], ?_, fun hn => ?_, ?_⟩
    · rw [hanswer]
      by_cases hfits : out.length ≤ n <;> simp [hfits]
    · rw [hanswer, if_neg (Nat.not_le.mpr hn)]
    · rw [hsink, Sink.written_writeAll, hroom, Option.getD_some]

/-- IDEA under ECB keyed with the all-zero key, deciphering with the trailer and a chunk of
one block: a source that delivers seventeen bytes, an interruption among them, and then fails
makes the stream fail; one that delivers them into an output with room for four bytes leaves
the first four bytes of the answer there. -/
theorem transformStream_io_failure_idea :
    let ctx := ((⟨⟨"idea", 16, [16], 8, 8, true⟩, ⟨"ecb", true, true, false⟩,
      ⟨⟨"idea", .idea⟩, ⟨"ecb", .ecb⟩, none⟩, none, none, none⟩ : Context).key
        (Bytes.zeros 16) none).2
    let opts : StreamOptions := ⟨true, some 1⟩
    let y : Bytes := [1, 2, 3, 4, 5, 6, 7, 8, 9, 10, 11, 12, 13, 14, 15, 16, 17]
    let failing : Source := [.bytes [1, 2, 3], .interrupted,
      .bytes [4, 5, 6, 7, 8, 9, 10, 11, 12, 13, 14, 15, 16, 17], .failure .readFailed]
    let delivering : Source := [.bytes [1, 2, 3], .interrupted,
      .bytes [4, 5, 6, 7, 8, 9, 10, 11, 12, 13, 14, 15, 16, 17]]
    ctx.Reachable ∧ ctx.isKeyed = true ∧ ctx.direction = none ∧
      opts.ChunkFits ctx.algorithm.blockSize ∧ failing.FailsAfter y ∧ delivering.Delivers y ∧
      y.length ≤ MachineWord.maxBuffer ∧
      (∃ fault, (ctx.transformStream .decrypt opts failing (Sink.bounded none)).result =
        .error (.io fault)) ∧
      ∃ out, (ctx.single .decrypt y true).1 = .ok out ∧
        (ctx.transformStream .decrypt opts delivering (Sink.bounded (some 4))).sink.written =
          out.take 4 := by
  intro ctx opts y failing delivering
  have hreach : ctx.Reachable :=
    .key _ _ (.built (rfl : Catalog.load Manifest.tomlReader (.dir []) none none = .ok Catalog.builtin)
      (rfl : withCatalog Catalog.builtin "idea" "ecb" = _))
  have hk : ctx.isKeyed = true := by decide
  have hdir : ctx.direction = none := by decide
  have hfit : opts.ChunkFits ctx.algorithm.blockSize := by decide
  have hdel : delivering.Delivers y := .bytes (by decide) (.interrupted (.bytes (by decide) .done))
  have hfail : failing.FailsAfter y := ⟨delivering, .readFailed, [], rfl, hdel⟩
  have hlen : y.length ≤ MachineWord.maxBuffer := by decide
  obtain ⟨hstop, hfull⟩ := transformStream_io_failure hreach hk
    (Or.inl hdir : ctx.direction = none ∨ ctx.direction = some .decrypt) hfit
  obtain ⟨out, hout, -, -, hwritten⟩ := hfull delivering y (Sink.bounded (some 4)) 4 hdel hlen rfl
  exact ⟨hreach, hk, hdir, hfit, hfail, hdel, hlen, (hstop failing y _ hfail).1, out, hout,
    by simpa using hwritten⟩

end Context

end CipherEngine
