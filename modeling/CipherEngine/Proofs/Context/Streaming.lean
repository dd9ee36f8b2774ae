import CipherEngine.Proofs.Context.Reachable

/-!
# A stream writes what one call writes

The stream driver reads its input chunk by chunk and transforms each chunk as it comes, but
it pads once, at the end of the input, and in a block mode it keeps one chunk in hand so that
only the last chunk has its trailer read.  This module proves that none of this shows.  Over
a source that delivers `x` in reads of any sizes, with interruptions anywhere between them,
into an output that takes every byte, a stream succeeds, writes exactly what one call of
`encrypt` or `decrypt` on `x` returns, and leaves the context that call leaves
(`Context.transformStream_eq_single`).

The argument has three layers.

* Reading: a source that delivers `x` fills each chunk with the next bytes of `x`
  (`Source.fill_delivers`), so a chunk is short only at the end of the input.
* Padding: the padding of `a ++ b`, for `a` a whole number of units, is `a` followed by the
  padding of `b` (`Padding.pad_append`).  Cutting a decryption to whole units and reading its
  trailer look only at the end as well (`Padding.wholeUnits_add`,
  `Padding.recoveredLen_append`).
* Transforming: two transforms of whole units are one (`Context.transformBuffer_append`), so
  a loop that transforms chunk after chunk transforms the whole input.  There is one lemma
  for each of the three loops, by induction along the loop, and it holds for any output: the
  loop writes what one write of the whole answer would, stopping where that write would be
  refused (`StreamRun.Writes`, `Context.encryptChunks_writes`).  Into an output that takes
  every byte, that write succeeds (`StreamRun.Writes.eq_of_unbounded`).

Buffers are slices, so no input is longer than the largest signed word
(`MachineWord.maxBuffer`); below that bound the padded length never wraps.
-/

set_option autoImplicit false

namespace CipherEngine

/-- The longest buffer a program holds: a slice spans at most the largest signed word of
bytes. -/
def MachineWord.maxBuffer : Nat := Nat.pow 2 63 - 1

/-- A buffer and one more block of the largest cipher fit a machine word. -/
theorem MachineWord.maxBuffer_add_le : maxBuffer + 16 ≤ max := by decide

theorem AlgorithmUnit.blockSize_le (a : AlgorithmUnit) : a.blockSize ≤ 16 := by
  unfold AlgorithmUnit.blockSize
  split <;> decide

/-! ## 1. Sources that deliver a string -/

namespace Source

/-- A source that hands out `x` in reads of any sizes, with interruptions anywhere between
them, and then reports the end of its input. -/
inductive Delivers : Source → Bytes → Prop
  | done : Delivers [] []
  | bytes {b : Bytes} {rest : Source} {x : Bytes} (hb : b ≠ []) :
      Delivers rest x → Delivers (.bytes b :: rest) (b ++ x)
  | interrupted {rest : Source} {x : Bytes} : Delivers rest x → Delivers (.interrupted :: rest) x

/-- Reading from a source that delivers `y` and is followed by more answers: up to `|y|`
bytes come from `y`, and the reading stops before the answers that follow. -/
theorem fillRev_append_of_le {pre : Source} {y : Bytes} (h : pre.Delivers y) (tail : Source)
    {need : Nat} (hneed : need ≤ y.length) (held : Bytes) :
    ∃ rest, (pre ++ tail).fillRev need held = (.ok ((y.take need).reverse ++ held), rest ++ tail) ∧
      rest.Delivers (y.drop need) := by
  induction h generalizing need held with
  | done =>
    have : need = 0 := by simpa using hneed
    subst this
    cases tail with
    | nil => exact ⟨[], by simp [fillRev], .done⟩
    | cons e es => exact ⟨[], by simp [fillRev], .done⟩
  | @bytes b rest x hb hrest ih =>
    rcases Nat.eq_zero_or_pos need with rfl | hn
    · exact ⟨.bytes b :: rest, by simp [fillRev], by simpa using hrest.bytes hb⟩
    have hne : b.isEmpty = false := List.isEmpty_eq_false_iff.mpr hb
    by_cases hlt : b.length < need
    · obtain ⟨rest', hf, hd⟩ := ih
        (show need - b.length ≤ x.length by simp at hneed; omega) (b.reverse ++ held)
      refine ⟨rest', ?_, ?_⟩
      · rw [List.cons_append, fillRev, if_neg (by omega)]
        simp [hne, List.drop_eq_nil_of_le (Nat.le_of_lt hlt), List.take_of_length_le
          (Nat.le_of_lt hlt), hlt, hf, List.take_append]
      · rwa [List.drop_append, List.drop_eq_nil_of_le (Nat.le_of_lt hlt), List.nil_append]
    by_cases heq : b.length = need
    · refine ⟨rest, ?_, ?_⟩
      · rw [List.cons_append, fillRev, if_neg (by omega)]
        simp [hne, ← heq]
      · rwa [← heq, List.drop_left]
    · have hgt : need < b.length := by omega
      refine ⟨.bytes (b.drop need) :: rest, ?_, ?_⟩
      · rw [List.cons_append, fillRev, if_neg (by omega)]
        have hleft : (b.drop need).isEmpty = false := by
          simp; omega
        simp [hne, hleft, List.take_append, Nat.sub_eq_zero_of_le (Nat.le_of_lt hgt)]
      · rw [List.drop_append, Nat.sub_eq_zero_of_le (Nat.le_of_lt hgt), List.drop_zero]
        exact hrest.bytes (by simp; omega)
  | @interrupted rest x hrest ih =>
    rcases Nat.eq_zero_or_pos need with rfl | hn
    · exact ⟨.interrupted :: rest, by simp [fillRev], by simpa using hrest.interrupted⟩
    obtain ⟨rest', hf, hd⟩ := ih hneed held
    exact ⟨rest', by rw [List.cons_append, fillRev, if_neg (by omega)]; exact hf, hd⟩

/-- Reading more than a source delivers before the answers that follow takes all it
delivers and goes on into them. -/
theorem fillRev_append_of_lt {pre : Source} {y : Bytes} (h : pre.Delivers y) (tail : Source)
    {need : Nat} (hneed : y.length < need) (held : Bytes) :
    (pre ++ tail).fillRev need held = tail.fillRev (need - y.length) (y.reverse ++ held) := by
  induction h generalizing need held with
  | done => simp
  | @bytes b rest x hb hrest ih =>
    have hne : b.isEmpty = false := List.isEmpty_eq_false_iff.mpr hb
    simp only [List.length_append] at hneed
    rw [List.cons_append, fillRev, if_neg (by omega)]
    simp [hne, List.drop_eq_nil_of_le (show b.length ≤ need by omega),
      List.take_of_length_le (show b.length ≤ need by omega), show b.length < need by omega,
      ih (show x.length < need - b.length by omega), Nat.sub_sub, List.reverseAux_eq]
  | @interrupted rest x hrest ih =>
    rw [List.cons_append, fillRev, if_neg (by omega)]
    exact ih hneed held

/-- Reading `need` more bytes from a source that delivers `x` takes the first `need` bytes
of `x` and leaves a source that delivers the rest. -/
theorem fillRev_delivers {src : Source} {x : Bytes} (h : src.Delivers x) (need : Nat)
    (held : Bytes) :
    ∃ rest, src.fillRev need held = (.ok ((x.take need).reverse ++ held), rest) ∧
      rest.Delivers (x.drop need) := by
  by_cases hneed : need ≤ x.length
  · obtain ⟨rest, hf, hd⟩ := fillRev_append_of_le h [] hneed held
    rw [List.append_nil, List.append_nil] at hf
    exact ⟨rest, hf, hd⟩
  · have hlt : x.length < need := Nat.lt_of_not_le hneed
    have hf := fillRev_append_of_lt h [] hlt held
    rw [List.append_nil] at hf
    refine ⟨[], ?_, ?_⟩
    · rw [hf, List.take_of_length_le (Nat.le_of_lt hlt)]
      simp [fillRev]
    · rw [List.drop_eq_nil_of_le (Nat.le_of_lt hlt)]
      exact .done

/-- **A source that delivers `x` fills a buffer of `cap` bytes with the first `cap` bytes
of `x`**, and what is left delivers the rest. -/
theorem fill_delivers {src : Source} {x : Bytes} (h : src.Delivers x) (cap : Nat) :
    ∃ rest, src.fill cap = (.ok (x.take cap), rest) ∧ rest.Delivers (x.drop cap) := by
  obtain ⟨rest, hf, hd⟩ := fillRev_delivers h cap []
  exact ⟨rest, by simp [fill, hf, Except.map], hd⟩

/-- What a read from a source that delivers `x` can give: the first bytes of `x`, with a
source that delivers the rest. -/
theorem Delivers.fill_eq {src : Source} {x : Bytes} (hx : src.Delivers x) {cap : Nat}
    {buf : Bytes} {rest : Source} (hf : src.fill cap = (.ok buf, rest)) :
    buf = x.take cap ∧ rest.Delivers (x.drop cap) := by
  obtain ⟨rest', hf', hd⟩ := fill_delivers hx cap
  rw [hf'] at hf
  simp only [Prod.mk.injEq, Except.ok.injEq] at hf
  obtain ⟨rfl, rfl⟩ := hf
  exact ⟨rfl, hd⟩

theorem Delivers.fill_ne_error {src : Source} {x : Bytes} (hx : src.Delivers x) {cap : Nat}
    {fault : IoFault} {rest : Source} (hf : src.fill cap = (.error fault, rest)) : False := by
  obtain ⟨rest', hf', -⟩ := fill_delivers hx cap
  rw [hf'] at hf
  simp at hf

end Source

/-! ## 2. Writes that stop at the first refusal -/

namespace Sink

/-- After a write that succeeded, writing more is writing everything at once. -/
theorem writeAll_append_of_ok {s s₁ : Sink} {a : Bytes} (h : s.writeAll a = (.ok (), s₁))
    (b : Bytes) : s₁.writeAll b = s.writeAll (a ++ b) := by
  unfold writeAll at h ⊢
  split at h
  · rename_i hs
    cases h
    simp [List.reverseAux_eq]
  · rename_i room hs
    split at h
    · rename_i ha
      cases h
      simp only [List.length_append]
      by_cases hb : b.length ≤ room - a.length
      · rw [if_pos hb, if_pos (by omega)]
        simp [List.reverseAux_eq, Nat.sub_sub]
      · rw [if_neg hb, if_neg (by omega)]
        simp [List.reverseAux_eq, List.take_append, List.take_of_length_le ha]
    · cases h

/-- A write that fails leaves the output as writing more would. -/
theorem writeAll_append_of_error {s s₁ : Sink} {a : Bytes} {e : IoFault}
    (h : s.writeAll a = (.error e, s₁)) (b : Bytes) : s.writeAll (a ++ b) = (.error e, s₁) := by
  unfold writeAll at h ⊢
  split at h
  · cases h
  · rename_i room hs
    split at h
    · cases h
    · rename_i ha
      cases h
      simp only [List.length_append]
      rw [if_neg (by omega), List.take_append_of_le_length (by omega)]

theorem writeAll_of_unbounded {s : Sink} (hs : s.room = none) (b : Bytes) :
    s.writeAll b = (.ok (), ⟨b.reverseAux s.latestFirst, none⟩) := by
  simp [writeAll, hs]

theorem written_writeAll_of_unbounded {s : Sink} (hs : s.room = none) (b : Bytes) :
    (s.writeAll b).2.written = s.written ++ b := by
  rw [written_writeAll, hs, Option.getD_none, List.take_length]

end Sink

namespace StreamRun

/-- A run that offers `out` to `sink` and stops at the first write that fails: its answer and
its output are those of writing `out` at once, and when all of `out` is taken it ends in
`ctx`. -/
def Writes (run : StreamRun) (sink : Sink) (out : Bytes) (ctx : Context) : Prop :=
  run.result = (sink.writeAll out).1.mapError .io ∧ run.sink = (sink.writeAll out).2 ∧
    ((sink.writeAll out).1 = .ok () → run.context = ctx)

theorem writes_of_writeAll (sink : Sink) (out : Bytes) (ctx : Context) :
    (⟨(sink.writeAll out).1.mapError .io, ctx, (sink.writeAll out).2⟩ : StreamRun).Writes
      sink out ctx :=
  ⟨rfl, rfl, fun _ => rfl⟩

/-- Offering more after a write that succeeded is offering everything at once. -/
theorem Writes.append {run : StreamRun} {s s₁ : Sink} {a b : Bytes} {ctx : Context}
    (h : s.writeAll a = (.ok (), s₁)) (hrun : run.Writes s₁ b ctx) : run.Writes s (a ++ b) ctx := by
  obtain ⟨hres, hsink, hctx⟩ := hrun
  rw [Sink.writeAll_append_of_ok h] at hres hsink hctx
  exact ⟨hres, hsink, hctx⟩

/-- A run that stops at a failed write writes what offering anything more would. -/
theorem writes_of_error {s s₁ : Sink} {a : Bytes} {e : IoFault} (h : s.writeAll a = (.error e, s₁))
    (ctx ctx' : Context) (b : Bytes) :
    (⟨.error (.io e), ctx, s₁⟩ : StreamRun).Writes s (a ++ b) ctx' := by
  refine ⟨?_, ?_, ?_⟩ <;> simp [Sink.writeAll_append_of_error h]

/-- Into an output that takes every byte, a run that writes `out` succeeds, with `out`
written. -/
theorem Writes.eq_of_unbounded {run : StreamRun} {sink : Sink} {out : Bytes} {ctx : Context}
    (h : run.Writes sink out ctx) (hs : sink.room = none) :
    run = ⟨.ok (), ctx, (sink.writeAll out).2⟩ := by
  have hok : (sink.writeAll out).1 = .ok () := by rw [Sink.writeAll_of_unbounded hs]
  obtain ⟨result, context, s⟩ := run
  obtain ⟨hres, hsink, hctx⟩ := h
  dsimp only at hres hsink hctx
  rw [hok] at hres
  subst hres hsink
  rw [hctx hok]
  rfl

end StreamRun

/-! ## 3. Padding looks only at the end -/

namespace Padding

/-- Whole units in front leave the padding of what follows as it is. -/
theorem fullPaddedLen_add {unit a : Nat} (n : Nat) (f : Bool) (ha : a % unit = 0) :
    fullPaddedLen (a + n) unit f = a + fullPaddedLen n unit f := by
  unfold fullPaddedLen
  split
  · rfl
  · have hu : 0 < unit := by omega
    obtain ⟨k, rfl⟩ := Nat.dvd_of_mod_eq_zero ha
    rw [Nat.mul_add_div hu, Nat.mul_add_mod]
    split <;> rw [Nat.mul_comm unit k, ← Nat.add_mul, Nat.add_assoc]

theorem fullPaddedLen_mod {unit : Nat} (hu : 0 < unit) (len : Nat) (f : Bool) :
    fullPaddedLen len unit f % unit = 0 := by
  unfold fullPaddedLen
  split
  · rw [show unit = 1 by omega, Nat.mod_one]
  · split <;> exact Nat.mul_mod_left _ _

/-- The trailer lands in the last part of a buffer. -/
theorem writeTrailer_append (a : Bytes) {c : Bytes} (hc : c ≠ []) (r : Nat) :
    writeTrailer (a ++ c) r = a ++ writeTrailer c r := by
  obtain ⟨y, ys, rfl⟩ := List.exists_cons_of_ne_nil hc
  cases a with
  | nil => rfl
  | cons x xs =>
    simp [writeTrailer, List.dropLast_cons_of_ne_nil (List.append_ne_nil_of_right_ne_nil xs hc)]

/-- **Padding `a ++ b`, for `a` a whole number of units, pads `b` alone.** -/
theorem pad_append {unit : Nat} {a b : Bytes} (f : Bool) (ha : a.length % unit = 0)
    (hw : a.length + b.length + unit ≤ MachineWord.max) :
    pad (a ++ b) unit f = a ++ pad b unit f := by
  have hab : paddedLen (a ++ b).length unit f = a.length + fullPaddedLen b.length unit f := by
    rw [paddedLen_eq_full _ _ _ (by simp; omega), List.length_append, fullPaddedLen_add _ _ ha]
  have hb : paddedLen b.length unit f = fullPaddedLen b.length unit f :=
    paddedLen_eq_full _ _ _ (by omega)
  have hle := le_fullPaddedLen b.length unit f
  have hrem : (a ++ b).length % unit = b.length % unit := by
    rw [List.length_append, Nat.add_mod, ha, Nat.zero_add, Nat.mod_mod]
  have hout : (a ++ b) ++ Bytes.zeros (paddedLen (a ++ b).length unit f - (a ++ b).length) =
      a ++ (b ++ Bytes.zeros (paddedLen b.length unit f - b.length)) := by
    rw [hab, hb, List.length_append, List.append_assoc,
      show a.length + fullPaddedLen b.length unit f - (a.length + b.length) =
        fullPaddedLen b.length unit f - b.length by omega]
  simp only [pad, hout, hrem]
  split
  · rename_i htr
    have hf : f = true := by simp at htr; exact htr.1
    have hu : 1 < unit := by simp at htr; exact htr.2
    have hpos : 0 < fullPaddedLen b.length unit f := by
      subst hf
      unfold fullPaddedLen
      simp only [show ¬ unit ≤ 1 by omega, if_false, if_true]
      exact Nat.mul_pos (Nat.succ_pos _) (by omega)
    refine writeTrailer_append a (fun hnil => ?_) _
    have hlen := congrArg List.length hnil
    simp only [List.length_append, Bytes.length_zeros, hb, List.length_nil] at hlen
    omega
  · rfl

theorem length_pad_mod {unit : Nat} (hu : 0 < unit) (b : Bytes) (f : Bool)
    (hw : b.length + unit ≤ MachineWord.max) : (pad b unit f).length % unit = 0 := by
  rw [length_pad _ _ _ hw, paddedLen_eq_full _ _ _ hw]
  exact fullPaddedLen_mod hu _ _

/-- Whole units in front are whole units of the whole. -/
theorem wholeUnits_add {unit a : Nat} (n : Nat) (ha : a % unit = 0) :
    wholeUnits (a + n) unit = a + wholeUnits n unit := by
  unfold wholeUnits
  split
  · rfl
  · have hrem : (a + n) % unit = n % unit := by rw [Nat.add_mod, ha, Nat.zero_add, Nat.mod_mod]
    have hle : n % unit ≤ n := Nat.mod_le n unit
    omega

theorem wholeUnits_mod {unit : Nat} (hu : 0 < unit) (n : Nat) : wholeUnits n unit % unit = 0 := by
  unfold wholeUnits
  split
  · rw [show unit = 1 by omega, Nat.mod_one]
  · exact Nat.mod_eq_zero_of_dvd (Nat.dvd_sub_mod n)

theorem wholeUnits_self {unit a : Nat} (ha : a % unit = 0) : wholeUnits a unit = a := by
  unfold wholeUnits
  split <;> omega

theorem wholeUnits_of_lt {unit n : Nat} (h : n < unit) : wholeUnits n unit = 0 := by
  unfold wholeUnits
  split
  · omega
  · rw [Nat.mod_eq_of_lt h, Nat.sub_self]

theorem le_wholeUnits {unit n : Nat} (hu : 0 < unit) (h : unit ≤ n) : unit ≤ wholeUnits n unit := by
  unfold wholeUnits
  split
  · exact h
  · have hlt := Nat.mod_lt n hu
    exact Nat.le_of_dvd (by omega) (Nat.dvd_sub_mod n)

/-- **The trailer is read from the last unit**: in front of at least one whole unit, more
bytes are kept whole. -/
theorem recoveredLen_append {unit : Nat} (o₁ : Bytes) {o₂ : Bytes} (h : unit ≤ o₂.length) :
    recoveredLen (o₁ ++ o₂) unit = o₁.length + recoveredLen o₂ unit := by
  by_cases hu : unit ≤ 1
  · simp [recoveredLen, hu]
  · have hne : o₂ ≠ [] := by
      intro hnil
      rw [hnil] at h
      simp at h
      omega
    have hlast : (o₁ ++ o₂).getLast? = o₂.getLast? := by
      rw [List.getLast?_append]
      obtain ⟨y, hy⟩ := Option.isSome_iff_exists.mp (List.getLast?_isSome.mpr hne)
      rw [hy, Option.some_or]
    simp only [recoveredLen, hu, false_or, List.length_append, hlast]
    rw [if_neg (by omega), if_neg (by omega)]
    omega

/-- Cutting by the trailer keeps whole units in front whole. -/
theorem take_recoveredLen_append {unit : Nat} (o₁ : Bytes) {o₂ : Bytes} (h : unit ≤ o₂.length) :
    (o₁ ++ o₂).take (recoveredLen (o₁ ++ o₂) unit) = o₁ ++ o₂.take (recoveredLen o₂ unit) := by
  rw [recoveredLen_append o₁ h, List.take_append, List.take_of_length_le (by omega),
    Nat.add_sub_cancel_left]

/-- Cutting at the trailer, read from a last part of at least one unit, keeps whatever comes
before that part. -/
theorem cut_append {unit : Nat} (o₁ : Bytes) {o₂ : Bytes} (h : unit ≤ o₂.length) (f : Bool) :
    (if f then (o₁ ++ o₂).take (recoveredLen (o₁ ++ o₂) unit) else o₁ ++ o₂) =
      o₁ ++ if f then o₂.take (recoveredLen o₂ unit) else o₂ := by
  cases f
  · rfl
  · exact take_recoveredLen_append o₁ h

end Padding

/-! ## 4. The three loops -/

namespace Context

/-- A context ready to transform with padding unit `unit`: keyed, coherent, and padding to
`unit`. -/
structure Ready (ctx : Context) (unit : Nat) : Prop where
  keyed : ctx.isKeyed = true
  coherent : ctx.Coherent
  unitLen : ctx.unitLen = unit

/-- A transform leaves a ready context ready. -/
theorem Ready.transformBuffer {ctx ctx' : Context} {unit : Nat} (hr : ctx.Ready unit)
    {dir : Direction} {buf out : Bytes} (h : ctx.transformBuffer dir buf = (.ok out, ctx')) :
    ctx'.Ready unit := by
  obtain ⟨hk, hc, hu⟩ := keyed_of_transformBuffer hr.keyed hr.coherent h
  exact ⟨hk, hc, hu.trans hr.unitLen⟩

/-- A ready context transforms every buffer of whole units, into as many bytes. -/
theorem Ready.transformBuffer_ok {ctx : Context} {unit : Nat} (hr : ctx.Ready unit)
    (dir : Direction) {buf : Bytes} (hb : buf.length % unit = 0) :
    ∃ out ctx', ctx.transformBuffer dir buf = (.ok out, ctx') ∧ out.length = buf.length := by
  obtain ⟨m, hs⟩ := (isKeyed_iff.mp hr.keyed).2
  have hfit : m.Fits buf := hr.coherent.fits hs (by rw [hr.unitLen]; exact hb)
  obtain ⟨out, m', h⟩ := m.transform_ok dir hfit
  exact ⟨out, ctx.withMode m', transformBuffer_eq hr.keyed hs h,
    (KeyedMode.length_transform (hr.coherent.runs m hs).2.2 h).1⟩

theorem unitLen_pos (ctx : Context) : 0 < ctx.unitLen := by
  unfold unitLen
  split <;> omega

theorem Ready.unit_pos {ctx : Context} {unit : Nat} (hr : ctx.Ready unit) : 0 < unit :=
  hr.unitLen ▸ ctx.unitLen_pos

/-- A ready context transforms whole units into as many bytes. -/
theorem Ready.length_transformBuffer {ctx ctx' : Context} {unit : Nat} (hr : ctx.Ready unit)
    {dir : Direction} {buf out : Bytes} (hb : buf.length % unit = 0)
    (h : ctx.transformBuffer dir buf = (.ok out, ctx')) : out.length = buf.length := by
  obtain ⟨o, c, hok, hlen⟩ := hr.transformBuffer_ok dir hb
  rw [hok] at h
  simp only [Prod.mk.injEq, Except.ok.injEq] at h
  rw [← h.1, hlen]

/-- After a transform of whole units, a ready context goes on to transform more whole units,
and the two transforms are one transform of both. -/
theorem Ready.transformBuffer_then {ctx ctx₁ : Context} {unit : Nat} (hr : ctx.Ready unit)
    {dir : Direction} {a b oa : Bytes} (ha : a.length % unit = 0) (hb : b.length % unit = 0)
    (h₁ : ctx.transformBuffer dir a = (.ok oa, ctx₁)) :
    ∃ ob ctx₂, ctx₁.transformBuffer dir b = (.ok ob, ctx₂) ∧
      ctx.transformBuffer dir (a ++ b) = (.ok (oa ++ ob), ctx₂) := by
  obtain ⟨oa', ob, c₁, ctx₂, h₁', h₂, h₁₂⟩ := transformBuffer_append hr.keyed hr.coherent dir
    (show a.length % ctx.unitLen = 0 by rw [hr.unitLen]; exact ha)
    (show b.length % ctx.unitLen = 0 by rw [hr.unitLen]; exact hb)
  rw [h₁] at h₁'
  cases h₁'
  exact ⟨ob, ctx₂, h₂, h₁₂⟩

/-- Two transforms of whole units in a row, from a ready context, are one transform of both. -/
theorem Ready.transformBuffer_chain {ctx ctx₁ ctx₂ : Context} {unit : Nat} (hr : ctx.Ready unit)
    {dir : Direction} {a b oa ob : Bytes} (ha : a.length % unit = 0) (hb : b.length % unit = 0)
    (h₁ : ctx.transformBuffer dir a = (.ok oa, ctx₁))
    (h₂ : ctx₁.transformBuffer dir b = (.ok ob, ctx₂)) :
    ctx.transformBuffer dir (a ++ b) = (.ok (oa ++ ob), ctx₂) := by
  obtain ⟨ob', c₂, h₂', h₁₂⟩ := hr.transformBuffer_then ha hb h₁
  rw [h₂] at h₂'
  cases h₂'
  exact h₁₂

/-- In a byte mode a buffer is transformed as its first `n` bytes and then the rest. -/
theorem Ready.byte_split {ctx : Context} (hr : ctx.Ready 1) (dir : Direction) (x : Bytes)
    (n : Nat) :
    ∃ o₁ ctx₁ o₂ ctx₂, ctx.transformBuffer dir (x.take n) = (.ok o₁, ctx₁) ∧
      ctx₁.transformBuffer dir (x.drop n) = (.ok o₂, ctx₂) ∧
      ctx.transformBuffer dir x = (.ok (o₁ ++ o₂), ctx₂) := by
  obtain ⟨o₁, o₂, ctx₁, ctx₂, h₁, h₂, h₁₂⟩ := transformBuffer_append hr.keyed hr.coherent dir
    (show (x.take n).length % ctx.unitLen = 0 by rw [hr.unitLen]; exact Nat.mod_one _)
    (show (x.drop n).length % ctx.unitLen = 0 by rw [hr.unitLen]; exact Nat.mod_one _)
  exact ⟨o₁, ctx₁, o₂, ctx₂, h₁, h₂, List.take_append_drop n x ▸ h₁₂⟩

/-- A full first chunk and the padding of the rest are the padding of the whole, transformed
in two calls. -/
theorem Ready.encrypt_split {ctx : Context} {unit chunk : Nat} (hr : ctx.Ready unit)
    (hmul : chunk % unit = 0) {x : Bytes} (hfull : (x.take chunk).length = chunk)
    (hw : x.length + unit ≤ MachineWord.max) (fixlength : Bool) :
    ∃ o₁ ctx₁ o₂ ctx₂, ctx.transformBuffer .encrypt (x.take chunk) = (.ok o₁, ctx₁) ∧
      ctx₁.transformBuffer .encrypt (Padding.pad (x.drop chunk) unit fixlength) = (.ok o₂, ctx₂) ∧
      ctx.transformBuffer .encrypt (Padding.pad x unit fixlength) = (.ok (o₁ ++ o₂), ctx₂) := by
  have hpad : Padding.pad x unit fixlength =
      x.take chunk ++ Padding.pad (x.drop chunk) unit fixlength :=
    calc Padding.pad x unit fixlength
        = Padding.pad (x.take chunk ++ x.drop chunk) unit fixlength := by
          rw [List.take_append_drop]
      _ = x.take chunk ++ Padding.pad (x.drop chunk) unit fixlength :=
          Padding.pad_append fixlength (by rw [hfull]; exact hmul)
            (by rw [List.length_take, List.length_drop]; omega)
  obtain ⟨o₁, o₂, ctx₁, ctx₂, h₁, h₂, h₁₂⟩ := transformBuffer_append hr.keyed hr.coherent .encrypt
    (show (x.take chunk).length % ctx.unitLen = 0 by rw [hr.unitLen, hfull]; exact hmul)
    (show (Padding.pad (x.drop chunk) unit fixlength).length % ctx.unitLen = 0 by
      rw [hr.unitLen]
      exact Padding.length_pad_mod hr.unit_pos _ _ (by rw [List.length_drop]; omega))
  exact ⟨o₁, ctx₁, o₂, ctx₂, h₁, h₂, by rw [hpad]; exact h₁₂⟩

/-- The whole units of `z`, at least one unit past a first chunk, are deciphered in one call
as the first chunk followed by the whole units of the rest. -/
theorem Ready.decrypt_split {ctx ctx₁ : Context} {unit chunk : Nat} (hr : ctx.Ready unit)
    (hmul : chunk % unit = 0) {z o₁ : Bytes} (hz : chunk + unit ≤ z.length)
    (h₁ : ctx.transformBuffer .decrypt (z.take chunk) = (.ok o₁, ctx₁)) :
    ∃ o₂ ctx₂, ctx₁.transformBuffer .decrypt
        ((z.drop chunk).take (Padding.wholeUnits (z.drop chunk).length unit)) = (.ok o₂, ctx₂) ∧
      unit ≤ o₂.length ∧
      ctx.transformBuffer .decrypt (z.take (Padding.wholeUnits z.length unit)) =
        (.ok (o₁ ++ o₂), ctx₂) := by
  have hu := hr.unit_pos
  have hlen : (z.take chunk).length = chunk := by rw [List.length_take]; omega
  have hwhole' := Padding.wholeUnits_le (z.drop chunk).length unit
  have hrest : ((z.drop chunk).take (Padding.wholeUnits (z.drop chunk).length unit)).length =
      Padding.wholeUnits (z.drop chunk).length unit := by
    rw [List.length_take, Nat.min_eq_left hwhole']
  have hrestmod : ((z.drop chunk).take (Padding.wholeUnits (z.drop chunk).length unit)).length %
      unit = 0 := by
    rw [hrest]
    exact Padding.wholeUnits_mod hu _
  obtain ⟨o₂, ctx₂, h₂, hab⟩ := hr.transformBuffer_then (by rw [hlen]; exact hmul) hrestmod h₁
  have hwhole : Padding.wholeUnits z.length unit =
      chunk + Padding.wholeUnits (z.drop chunk).length unit := by
    rw [List.length_drop, ← Padding.wholeUnits_add _ hmul, Nat.add_sub_cancel' (by omega)]
  refine ⟨o₂, ctx₂, h₂, ?_, by rw [hwhole, List.take_add]; exact hab⟩
  rw [(hr.transformBuffer h₁).length_transformBuffer hrestmod h₂, hrest]
  exact Padding.le_wholeUnits hu (by rw [List.length_drop]; omega)

section Loops

variable {chunk unit : Nat} (fixlength : Bool)

/-- A chunk read short is the whole rest of the input. -/
theorem take_eq_of_short (hchunk : 0 < chunk) {x : Bytes}
    (h : ¬((x.take chunk).length = chunk ∧ chunk ≠ 0)) : x.take chunk = x := by
  rw [List.length_take] at h
  exact List.take_of_length_le (by omega)

/-- Deciphering the chunk in hand deciphers its whole units in one call, and writes them, cut
by the trailer when the chunk is the last and the trailer is read. -/
theorem emitDecrypted_eq_writeAll (ctx : Context) (current : Bytes) (sink : Sink) (isLast : Bool)
    (hr : ctx.Ready unit) :
    ∃ out ctx', ctx.transformBuffer .decrypt
        (current.take (Padding.wholeUnits current.length unit)) = (.ok out, ctx') ∧
      out.length = Padding.wholeUnits current.length unit ∧
      let kept := if isLast && fixlength then out.take (Padding.recoveredLen out unit) else out
      emitDecrypted unit fixlength isLast ctx current sink =
        ⟨(sink.writeAll kept).1.mapError .io, ctx', (sink.writeAll kept).2⟩ := by
  have hwhole := Padding.wholeUnits_le current.length unit
  obtain ⟨out, ctx', htb, hlen⟩ := hr.transformBuffer_ok .decrypt
    (by rw [List.length_take, Nat.min_eq_left hwhole]; exact Padding.wholeUnits_mod hr.unit_pos _)
  rw [List.length_take, Nat.min_eq_left hwhole] at hlen
  refine ⟨out, ctx', htb, hlen, ?_⟩
  unfold emitDecrypted
  simp only [htb]
  cases isLast && fixlength
  · simp [← hlen]
  · rfl

/-- A full chunk that is not the last is deciphered in one call and written whole: the run
stops with the fault of that write when it fails, and otherwise ends with the output that
took the chunk. -/
theorem emitDecrypted_full (ctx : Context) {current : Bytes} (hlen : current.length = chunk)
    (hmul : chunk % unit = 0) (hr : ctx.Ready unit) (sink : Sink) :
    ∃ o ctx', ctx.transformBuffer .decrypt current = (.ok o, ctx') ∧
      ((∃ f s₁, sink.writeAll o = (.error f, s₁) ∧
          emitDecrypted unit fixlength false ctx current sink = ⟨.error (.io f), ctx', s₁⟩) ∨
        ∃ s₁, sink.writeAll o = (.ok (), s₁) ∧
          emitDecrypted unit fixlength false ctx current sink = ⟨.ok (), ctx', s₁⟩) := by
  obtain ⟨o, ctx', htb, -, hemit⟩ := emitDecrypted_eq_writeAll fixlength ctx current sink false hr
  rw [hlen, Padding.wholeUnits_self hmul, ← hlen, List.take_length] at htb
  have hrun : emitDecrypted unit fixlength false ctx current sink =
      ⟨(sink.writeAll o).1.mapError .io, ctx', (sink.writeAll o).2⟩ := by
    simpa using hemit
  refine ⟨o, ctx', htb, ?_⟩
  cases hw : sink.writeAll o with
  | mk r s₁ =>
    rw [hw] at hrun
    cases r with
    | error f => exact .inl ⟨f, s₁, rfl, hrun⟩
    | ok u => exact .inr ⟨s₁, rfl, hrun⟩

/-- **The encryption loop writes what one call on the padded input returns**, into any
output, stopping at the first write that fails.  The invariant is that every chunk so far
was full, so what is left is the rest of the input. -/
theorem encryptChunks_writes (hchunk : 0 < chunk) (hmul : chunk % unit = 0) (ctx : Context)
    (src : Source) (sink : Sink) {x : Bytes} (hr : ctx.Ready unit) (hx : src.Delivers x)
    (hw : x.length + unit ≤ MachineWord.max) :
    ∃ out ctx', ctx.transformBuffer .encrypt (Padding.pad x unit fixlength) = (.ok out, ctx') ∧
      (encryptChunks chunk unit fixlength ctx src sink).Writes sink out ctx' := by
  fun_induction encryptChunks chunk unit fixlength ctx src sink generalizing x with
  | case1 ctx src sink f rest hfill => exact (hx.fill_ne_error hfill).elim
  | case2 ctx src sink buf rest hfill hfull e ctx' htb =>
    obtain ⟨o, c, hok, -⟩ := hr.transformBuffer_ok .encrypt (by rw [hfull.1]; exact hmul)
    simp [hok] at htb
  | case3 ctx src sink buf rest hfill hfull out ctx₁ htb f sink₁ hwr =>
    obtain ⟨rfl, -⟩ := hx.fill_eq hfill
    obtain ⟨o₁, c₁, o₂, ctx₂, h₁, -, h₁₂⟩ := hr.encrypt_split hmul hfull.1 hw fixlength
    rw [htb] at h₁
    cases h₁
    exact ⟨out ++ o₂, ctx₂, h₁₂, StreamRun.writes_of_error hwr _ _ _⟩
  | case4 ctx src sink buf rest hfill hfull out ctx₁ htb sink₁ hwr ih =>
    obtain ⟨rfl, hd⟩ := hx.fill_eq hfill
    obtain ⟨o₁, c₁, o₂, ctx₂, h₁, h₂, h₁₂⟩ := hr.encrypt_split hmul hfull.1 hw fixlength
    rw [htb] at h₁
    cases h₁
    obtain ⟨o₂', ctx₂', htb₂, hloop⟩ := ih (hr.transformBuffer htb) hd
      (by rw [List.length_drop]; omega)
    rw [h₂] at htb₂
    cases htb₂
    exact ⟨out ++ o₂, ctx₂, h₁₂, hloop.append hwr⟩
  | case5 ctx src sink buf rest hfill hshort e ctx' htb =>
    obtain ⟨rfl, -⟩ := hx.fill_eq hfill
    rw [take_eq_of_short hchunk hshort] at htb
    obtain ⟨o, c, hok, -⟩ := hr.transformBuffer_ok .encrypt
      (Padding.length_pad_mod hr.unit_pos x fixlength hw)
    simp [hok] at htb
  | case6 ctx src sink buf rest hfill hshort out ctx' htb r sink' hwr =>
    obtain ⟨rfl, -⟩ := hx.fill_eq hfill
    rw [take_eq_of_short hchunk hshort] at htb
    exact ⟨out, ctx', htb, by rw [hwr], by rw [hwr], fun _ => rfl⟩

/-- **The block decryption loop writes what one call on the whole units returns**, cut by
the trailer when it is read, into any output, stopping at the first write that fails.  The
invariant: the chunk in hand is the next chunk of the input `z` still to decrypt, and the
source delivers what follows it. -/
theorem decryptBlockChunks_writes (hchunk : 0 < chunk) (hmul : chunk % unit = 0)
    (hunit : 1 < unit) (ctx : Context) (current : Bytes) (src : Source) (sink : Sink) {z : Bytes}
    (hr : ctx.Ready unit) (hcur : current = z.take chunk) (hx : src.Delivers (z.drop chunk)) :
    ∃ out ctx', ctx.transformBuffer .decrypt (z.take (Padding.wholeUnits z.length unit)) =
        (.ok out, ctx') ∧
      (decryptBlockChunks chunk unit fixlength ctx current src sink).Writes sink
        (if fixlength then out.take (Padding.recoveredLen out unit) else out) ctx' := by
  have hle : unit ≤ chunk := Nat.le_of_dvd hchunk (Nat.dvd_of_mod_eq_zero hmul)
  fun_induction decryptBlockChunks chunk unit fixlength ctx current src sink generalizing z with
  | case1 ctx current src sink hshort =>
    subst hcur
    rw [List.length_take] at hshort
    have hz : z.take chunk = z := List.take_of_length_le (by omega)
    rw [hz]
    obtain ⟨out, ctx', htb, -, hemit⟩ := emitDecrypted_eq_writeAll fixlength ctx z sink true hr
    rw [hemit]
    exact ⟨out, ctx', htb, StreamRun.writes_of_writeAll _ _ _⟩
  | case2 ctx current src sink hfull f rest hfill => exact (hx.fill_ne_error hfill).elim
  | case3 ctx current src sink hfull next rest hfill hlast =>
    subst hcur
    obtain ⟨rfl, -⟩ := hx.fill_eq hfill
    rw [List.length_take] at hfull hlast
    rw [List.length_drop] at hlast
    have hlen : (z.take chunk).length = chunk := by rw [List.length_take]; omega
    have hwhole : Padding.wholeUnits z.length unit = chunk := by
      rw [show z.length = chunk + (z.length - chunk) by omega, Padding.wholeUnits_add _ hmul,
        Padding.wholeUnits_of_lt (by omega), Nat.add_zero]
    obtain ⟨out, ctx', htb, -, hemit⟩ := emitDecrypted_eq_writeAll fixlength ctx (z.take chunk)
      sink true hr
    rw [hlen, Padding.wholeUnits_self hmul, List.take_take, Nat.min_self] at htb
    rw [hemit]
    exact ⟨out, ctx', by rw [hwhole]; exact htb, StreamRun.writes_of_writeAll _ _ _⟩
  | case4 ctx current src sink hfull next rest hfill hnotlast run e =>
    rename_i herr
    subst hcur
    obtain ⟨rfl, -⟩ := hx.fill_eq hfill
    rw [List.length_take] at hfull hnotlast
    rw [List.length_drop] at hnotlast
    obtain ⟨o₁, ctx₁, htb₁, ⟨f, s₁, hw, hrun⟩ | ⟨s₁, hw, hrun⟩⟩ := emitDecrypted_full fixlength ctx
      (show (z.take chunk).length = chunk by rw [List.length_take]; omega) hmul hr sink
    · obtain ⟨o₂, ctx₂, -, hlen₂, h₁₂⟩ := hr.decrypt_split hmul (by omega) htb₁
      refine ⟨o₁ ++ o₂, ctx₂, h₁₂, ?_⟩
      have hrun' : run = ⟨.error (.io f), ctx₁, s₁⟩ := hrun
      rw [Padding.cut_append o₁ hlen₂, hrun']
      exact StreamRun.writes_of_error hw _ _ _
    · simp [run, hrun] at herr
  | case5 ctx current src sink hfull next rest hfill hnotlast run hok =>
    rename_i ih
    subst hcur
    obtain ⟨rfl, hd⟩ := hx.fill_eq hfill
    rw [List.length_take] at hfull hnotlast
    rw [List.length_drop] at hnotlast
    obtain ⟨o₁, ctx₁, htb₁, ⟨f, s₁, hw, hrun⟩ | ⟨s₁, hw, hrun⟩⟩ := emitDecrypted_full fixlength ctx
      (show (z.take chunk).length = chunk by rw [List.length_take]; omega) hmul hr sink
    · simp [run, hrun] at hok
    · obtain ⟨o₂, ctx₂, htb₂, hlen₂, h₁₂⟩ := hr.decrypt_split hmul (by omega) htb₁
      refine ⟨o₁ ++ o₂, ctx₂, h₁₂, ?_⟩
      have hrun' : run = ⟨.ok (), ctx₁, s₁⟩ := hrun
      rw [Padding.cut_append o₁ hlen₂]
      rw [hrun'] at ih ⊢
      obtain ⟨o₂', ctx₂', htb₂', hloop⟩ := ih (hr.transformBuffer htb₁) rfl hd
      rw [htb₂] at htb₂'
      cases htb₂'
      exact hloop.append hw

/-- **The byte decryption loop writes what one call on the input returns**, into any output,
stopping at the first write that fails. -/
theorem decryptByteChunks_writes (hchunk : 0 < chunk) (ctx : Context) (src : Source)
    (sink : Sink) {x : Bytes} (hr : ctx.Ready 1) (hx : src.Delivers x) :
    ∃ out ctx', ctx.transformBuffer .decrypt x = (.ok out, ctx') ∧
      (decryptByteChunks chunk ctx src sink).Writes sink out ctx' := by
  fun_induction decryptByteChunks chunk ctx src sink generalizing x with
  | case1 ctx src sink f rest hfill => exact (hx.fill_ne_error hfill).elim
  | case2 ctx src sink buf rest hfill e ctx' htb =>
    obtain ⟨o, c, hok, -⟩ := hr.transformBuffer_ok .decrypt (Nat.mod_one buf.length)
    simp [hok] at htb
  | case3 ctx src sink buf rest hfill out ctx₁ htb f sink₁ hwr =>
    obtain ⟨rfl, -⟩ := hx.fill_eq hfill
    obtain ⟨o₁, c₁, o₂, ctx₂, h₁, -, h₁₂⟩ := hr.byte_split .decrypt x chunk
    rw [htb] at h₁
    cases h₁
    exact ⟨out ++ o₂, ctx₂, h₁₂, StreamRun.writes_of_error hwr _ _ _⟩
  | case4 ctx src sink buf rest hfill out ctx' htb sink' hwr hshort =>
    obtain ⟨rfl, -⟩ := hx.fill_eq hfill
    have hz : x.take chunk = x := by
      rw [List.length_take] at hshort
      exact List.take_of_length_le (by omega)
    rw [hz] at htb
    exact ⟨out, ctx', htb, by rw [hwr]; rfl, by rw [hwr], fun _ => rfl⟩
  | case5 ctx src sink buf rest hfill out ctx₁ htb sink₁ hwr hfull ih =>
    obtain ⟨rfl, hd⟩ := hx.fill_eq hfill
    obtain ⟨o₁, c₁, o₂, ctx₂, h₁, h₂, h₁₂⟩ := hr.byte_split .decrypt x chunk
    rw [htb] at h₁
    cases h₁
    obtain ⟨o₂', ctx₂', htb₂, hloop⟩ := ih (hr.transformBuffer htb) hd
    rw [h₂] at htb₂
    cases htb₂
    exact ⟨out ++ o₂, ctx₂, h₁₂, hloop.append hwr⟩

/-- **The encryption loop encrypts the padded input in one call**: into an output that
takes every byte it succeeds, writes the output of that call and ends in the context that
call leaves. -/
theorem encryptChunks_eq (hchunk : 0 < chunk) (hmul : chunk % unit = 0) (ctx : Context)
    (src : Source) (sink : Sink) {x : Bytes} (hr : ctx.Ready unit) (hx : src.Delivers x)
    (hs : sink.room = none) (hw : x.length + unit ≤ MachineWord.max) :
    ∃ out ctx', ctx.transformBuffer .encrypt (Padding.pad x unit fixlength) = (.ok out, ctx') ∧
      encryptChunks chunk unit fixlength ctx src sink = ⟨.ok (), ctx', (sink.writeAll out).2⟩ := by
  obtain ⟨out, ctx', htb, hrun⟩ := encryptChunks_writes fixlength hchunk hmul ctx src sink hr hx hw
  exact ⟨out, ctx', htb, hrun.eq_of_unbounded hs⟩

/-- **The block decryption loop decrypts the whole units of the input in one call**: into an
output that takes every byte it succeeds, writes them cut by the trailer when the trailer is
read, and ends in the context that call leaves. -/
theorem decryptBlockChunks_eq (hchunk : 0 < chunk) (hmul : chunk % unit = 0) (hunit : 1 < unit)
    (ctx : Context) (current : Bytes) (src : Source) (sink : Sink) {z : Bytes}
    (hr : ctx.Ready unit) (hcur : current = z.take chunk) (hx : src.Delivers (z.drop chunk))
    (hs : sink.room = none) :
    ∃ out ctx', ctx.transformBuffer .decrypt (z.take (Padding.wholeUnits z.length unit)) =
        (.ok out, ctx') ∧
      decryptBlockChunks chunk unit fixlength ctx current src sink =
        ⟨.ok (), ctx', (sink.writeAll
          (if fixlength then out.take (Padding.recoveredLen out unit) else out)).2⟩ := by
  obtain ⟨out, ctx', htb, hrun⟩ :=
    decryptBlockChunks_writes fixlength hchunk hmul hunit ctx current src sink hr hcur hx
  exact ⟨out, ctx', htb, hrun.eq_of_unbounded hs⟩

/-- **The byte decryption loop decrypts the input in one call**: into an output that takes
every byte it succeeds, writes its output and ends in the context that call leaves. -/
theorem decryptByteChunks_eq (hchunk : 0 < chunk) (ctx : Context) (src : Source) (sink : Sink)
    {x : Bytes} (hr : ctx.Ready 1) (hx : src.Delivers x) (hs : sink.room = none) :
    ∃ out ctx', ctx.transformBuffer .decrypt x = (.ok out, ctx') ∧
      decryptByteChunks chunk ctx src sink = ⟨.ok (), ctx', (sink.writeAll out).2⟩ := by
  obtain ⟨out, ctx', htb, hrun⟩ := decryptByteChunks_writes hchunk ctx src sink hr hx
  exact ⟨out, ctx', htb, hrun.eq_of_unbounded hs⟩

end Loops

/-! ## 5. A stream is one call -/

/-- A keyed context whose direction is unset, or already `dir`, starts a transform in `dir`
by binding it. -/
theorem begin_eq {ctx : Context} (hk : ctx.isKeyed = true) {dir : Direction}
    (hdir : ctx.direction = none ∨ ctx.direction = some dir) :
    ctx.begin dir = .ok { ctx with direction := some dir } := by
  unfold begin
  rcases hdir with h | h
  · simp [hk, h]
  · cases ctx
    simp_all

@[simp] theorem unitLen_withDirection (ctx : Context) (d : Option Direction) :
    ({ ctx with direction := d } : Context).unitLen = ctx.unitLen := rfl

/-- The padding unit of a coherent context is at most the largest block. -/
theorem Coherent.unitLen_le {ctx : Context} (hc : ctx.Coherent) : ctx.unitLen ≤ 16 := by
  have := ctx.unit.algorithm.blockSize_le
  simp only [unitLen, hc.blockSize]
  split <;> omega

/-- A chunk of the stream is a whole number of padding units. -/
theorem chunk_mod_unitLen (ctx : Context) (blocks : Nat) :
    (blocks * max ctx.algorithm.blockSize 1) % ctx.unitLen = 0 := by
  unfold unitLen
  split
  · exact Nat.mul_mod_left _ _
  · exact Nat.mod_one _

/-- **A stream writes what one call writes.**  Streaming a source that delivers `x` through a
reachable keyed context, into an output that takes every byte, succeeds; it writes exactly
the output of one `encrypt` or `decrypt` call on `x` from the same context, and ends in the
context that call leaves.  Padding and the trailer are applied once, from the length of `x`,
whatever the chunk size and however the source cuts its reads. -/
theorem transformStream_eq_single {ctx : Context} (hreach : ctx.Reachable)
    (hk : ctx.isKeyed = true) {dir : Direction}
    (hdir : ctx.direction = none ∨ ctx.direction = some dir) (fixlength : Bool) {blocks : Nat}
    (hblocks : 0 < blocks) (hchunk : blocks * max ctx.algorithm.blockSize 1 ≤ maxChunk)
    {src : Source} {x : Bytes} (hx : src.Delivers x) (hlen : x.length ≤ MachineWord.maxBuffer)
    {sink : Sink} (hs : sink.room = none) :
    let single := match dir with
      | .encrypt => ctx.encrypt x fixlength
      | .decrypt => ctx.decrypt x fixlength
    let run := ctx.transformStream dir ⟨fixlength, some blocks⟩ src sink
    ∃ out, single.1 = .ok out ∧ run.result = .ok () ∧ run.sink.written = sink.written ++ out ∧
      run.context = single.2 := by
  dsimp only
  have hbegin := begin_eq hk hdir
  have hc := hreach.coherent
  have hr : ({ ctx with direction := some dir } : Context).Ready ctx.unitLen :=
    ⟨hk, hc.keeps (keeps_begin hbegin), rfl⟩
  have hpos : 0 < blocks * max ctx.algorithm.blockSize 1 := Nat.mul_pos hblocks (by omega)
  have hmul := chunk_mod_unitLen ctx blocks
  have hopen : ¬ maxChunk < blocks * max ctx.algorithm.blockSize 1 := Nat.not_lt.mpr hchunk
  -- it suffices that the stream ends as the call's output written after the sink's bytes
  suffices h : ∃ out ctx', (match dir with
      | .encrypt => ctx.encrypt x fixlength
      | .decrypt => ctx.decrypt x fixlength) = (.ok out, ctx') ∧
      ctx.transformStream dir ⟨fixlength, some blocks⟩ src sink =
        ⟨.ok (), ctx', (sink.writeAll out).2⟩ by
    obtain ⟨out, ctx', hsingle, hstream⟩ := h
    rw [hsingle, hstream]
    exact ⟨out, rfl, rfl, Sink.written_writeAll_of_unbounded hs out, rfl⟩
  cases dir with
  | encrypt =>
    have hw : x.length + ctx.unitLen ≤ MachineWord.max := by
      have := hc.unitLen_le
      have := MachineWord.maxBuffer_add_le
      omega
    obtain ⟨out, ctx', htb, hloop⟩ := encryptChunks_eq fixlength hpos hmul _ src sink hr hx hs hw
    refine ⟨out, ctx', by simp only [encrypt, hbegin]; exact htb, ?_⟩
    simp only [transformStream, Option.getD_some, Nat.pos_iff_ne_zero.mp hblocks, if_false, hopen,
      hbegin]
    exact hloop
  | decrypt =>
    by_cases hu : 1 < ctx.unitLen
    · -- a block mode: the first chunk is read ahead, and the block loop takes over
      obtain ⟨rest, hf, hd⟩ := Source.fill_delivers hx (blocks * max ctx.algorithm.blockSize 1)
      obtain ⟨out, ctx', htb, hloop⟩ :=
        decryptBlockChunks_eq fixlength hpos hmul hu _ _ rest sink hr rfl hd hs
      refine ⟨if fixlength then out.take (Padding.recoveredLen out ctx.unitLen) else out, ctx',
        by simp only [decrypt, hbegin, unitLen_withDirection]; rw [htb]; simp [hu], ?_⟩
      simp only [transformStream, Option.getD_some, Nat.pos_iff_ne_zero.mp hblocks, if_false,
        hopen, hbegin, unitLen_withDirection, hu, if_true, hf]
      exact hloop
    · -- a byte mode: every byte is a whole unit
      have hone : ctx.unitLen = 1 := by have := hr.unit_pos; omega
      obtain ⟨out, ctx', htb, hloop⟩ :=
        decryptByteChunks_eq hpos _ src sink ⟨hr.keyed, hr.coherent, hone⟩ hx hs
      have hwhole : Padding.wholeUnits x.length ctx.unitLen = x.length := by
        simp [Padding.wholeUnits, hone]
      refine ⟨out, ctx', ?_, ?_⟩
      · simp only [decrypt, hbegin, unitLen_withDirection]
        rw [hwhole, List.take_length, htb]
        simp [hone]
      · simp only [transformStream, Option.getD_some, Nat.pos_iff_ne_zero.mp hblocks, if_false,
          hopen, hbegin, unitLen_withDirection, hu]
        exact hloop

/-- IDEA under ECB keyed with the all-zero key: five bytes read in two answers with an
interruption between them, encrypted with the trailer in chunks of one block. -/
theorem transformStream_eq_single_idea :
    let ctx := ((⟨⟨"idea", 16, [16], 8, 8, true⟩, ⟨"ecb", true, true, false⟩,
      ⟨⟨"idea", .idea⟩, ⟨"ecb", .ecb⟩, none⟩, none, none, none⟩ : Context).key
        (Bytes.zeros 16) none).2
    let src : Source := [.bytes [1, 2, 3], .interrupted, .bytes [4, 5]]
    ctx.Reachable ∧ ctx.isKeyed = true ∧
      (ctx.direction = none ∨ ctx.direction = some .encrypt) ∧ 0 < 1 ∧
      1 * max ctx.algorithm.blockSize 1 ≤ maxChunk ∧ src.Delivers [1, 2, 3, 4, 5] ∧
      [1, 2, 3, 4, 5].length ≤ MachineWord.maxBuffer ∧ (Sink.bounded none).room = none ∧
      ∃ out, (ctx.encrypt [1, 2, 3, 4, 5] true).1 = .ok out ∧
        (ctx.transformStream .encrypt ⟨true, some 1⟩ src (Sink.bounded none)).result = .ok () ∧
        (ctx.transformStream .encrypt ⟨true, some 1⟩ src (Sink.bounded none)).sink.written =
          (Sink.bounded none).written ++ out ∧
        (ctx.transformStream .encrypt ⟨true, some 1⟩ src (Sink.bounded none)).context =
          (ctx.encrypt [1, 2, 3, 4, 5] true).2 := by
  intro ctx src
  have hreach : ctx.Reachable :=
    .key _ _ (.built (rfl : Catalog.load Manifest.tomlReader (.dir []) none none = .ok Catalog.builtin)
      (rfl : withCatalog Catalog.builtin "idea" "ecb" = _))
  have hsrc : src.Delivers [1, 2, 3, 4, 5] := .bytes (by decide) (.interrupted (.bytes (by decide) .done))
  exact ⟨hreach, by decide, .inl (by decide), by decide, by decide, hsrc, by decide, rfl,
    @transformStream_eq_single ctx hreach (by decide) .encrypt (.inl (by decide)) true 1 (by decide)
      (by decide) src [1, 2, 3, 4, 5] hsrc (by decide) (Sink.bounded none) rfl⟩

end Context

end CipherEngine
