import CipherEngine.Proofs.Context.Streaming

/-!
# Keyed transforms succeed on every buffer

A keyed context whose direction is unbound, or bound the way it is asked, enciphers every
buffer and deciphers every buffer, whatever its length or content: a ciphertext under the
wrong key, or one written without the length trailer, is deciphered all the same
(`Context.Reachable.transforms_total`).  Encryption pads to whole units and decryption drops
a trailing partial unit, so the unit only ever sees whole units, which the keyed mode of a
reachable context always takes (`Context.Ready.transformBuffer_ok`).

What a decryption keeps is read off the last byte `r` of the deciphered whole units
(`Padding.keptLen`): all of them without the trailer, in a byte mode, or when less than one
unit came in; otherwise all but the last unit and `r` bytes of that one, or the whole unit
when `r` is above it.  Both cuts stay inside their buffers: the whole units are a prefix of
the input, and what is kept is a prefix of what was deciphered.
-/

set_option autoImplicit false

namespace CipherEngine

namespace Padding

/-- Cutting at the trailer keeps at most the whole buffer. -/
theorem recoveredLen_le (b : Bytes) (unit : Nat) : recoveredLen b unit ≤ b.length := by
  unfold recoveredLen
  split <;> omega

/-- The length a decryption keeps of the `w` bytes its unit deciphered, whose last byte is
`r`: all of them, unless the trailer is read and a whole unit was deciphered; then the last
unit keeps `r` of its bytes, or all of them when `r` is above the unit. -/
def keptLen (unit w : Nat) (fixlength : Bool) (r : UInt8) : Nat :=
  if fixlength = false ∨ unit = 1 ∨ w < unit then w else w - unit + min r.toNat unit

/-- What is kept of a deciphered buffer: the cut at the trailer is read from its last byte. -/
theorem length_cut (b : Bytes) {unit : Nat} (hu : 0 < unit) (f : Bool) :
    (if f && decide (1 < unit) then b.take (recoveredLen b unit) else b).length =
      keptLen unit b.length f (b.getLast?.getD 0) := by
  unfold keptLen
  cases f with
  | false => simp
  | true =>
    by_cases h1 : 1 < unit
    · rw [if_pos (by simp [h1]), List.length_take, Nat.min_eq_left (recoveredLen_le _ _),
        recoveredLen]
      by_cases hw : b.length < unit
      · rw [if_pos (.inr hw), if_pos (.inr (.inr hw))]
      · rw [if_neg (by omega), if_neg (by simp; omega)]
    · rw [if_neg (by simp [h1]), if_pos (.inr (.inl (by omega)))]

end Padding

namespace Context

/-- Enciphering from a keyed context whose direction allows it enciphers the padded buffer
in one call. -/
theorem encrypt_eq_transformBuffer {ctx : Context} (hk : ctx.isKeyed = true)
    (hdir : ctx.direction = none ∨ ctx.direction = some .encrypt) (p : Bytes) (f : Bool) :
    ctx.encrypt p f = ({ ctx with direction := some .encrypt } : Context).transformBuffer .encrypt
      (Padding.pad p ctx.unitLen f) := by
  rw [Context.encrypt, begin_eq hk hdir]
  rfl

/-- Deciphering from a keyed context whose direction allows it deciphers the whole units of
the buffer in one call, and cuts the result at the trailer when asked. -/
theorem decrypt_of_transformBuffer {ctx ctx' : Context} (hk : ctx.isKeyed = true)
    (hdir : ctx.direction = none ∨ ctx.direction = some .decrypt) {c plain : Bytes}
    (htb : ({ ctx with direction := some .decrypt } : Context).transformBuffer .decrypt
      (c.take (Padding.wholeUnits c.length ctx.unitLen)) = (.ok plain, ctx')) (f : Bool) :
    ctx.decrypt c f = (.ok (if f && decide (1 < ctx.unitLen) then
        plain.take (Padding.recoveredLen plain ctx.unitLen) else plain), ctx') := by
  rw [Context.decrypt, begin_eq hk hdir]
  dsimp only
  rw [unitLen_withDirection, htb]

/-- **A keyed context enciphers every buffer and deciphers every buffer.**  From any reachable
keyed state whose direction is unbound or the one asked, `encrypt` returns a ciphertext for
every buffer a program can hold.  `decrypt` deciphers the whole units `w` of any buffer in one
call of the unit, and returns a prefix of what came out, `Padding.keptLen` bytes long, read
from the last deciphered byte. -/
theorem Reachable.transforms_total {ctx : Context} (hreach : ctx.Reachable)
    (hk : ctx.isKeyed = true) :
    (∀ (p : Bytes) (f : Bool), (ctx.direction = none ∨ ctx.direction = some .encrypt) →
        p.length ≤ MachineWord.maxBuffer → ∃ c, (ctx.encrypt p f).1 = .ok c) ∧
    (∀ (c : Bytes) (f : Bool), (ctx.direction = none ∨ ctx.direction = some .decrypt) →
        let w := Padding.wholeUnits c.length ctx.unitLen
        w ≤ c.length ∧ ∃ plain out ctx',
          ({ ctx with direction := some .decrypt } : Context).transformBuffer .decrypt
            (c.take w) = (.ok plain, ctx') ∧ plain.length = w ∧
          ctx.decrypt c f = (.ok out, ctx') ∧ out <+: plain ∧
          out.length = Padding.keptLen ctx.unitLen w f (plain.getLast?.getD 0)) := by
  have hc := hreach.coherent
  refine ⟨fun p f hdir hlen => ?_, fun c f hdir => ?_⟩
  · have hr : ({ ctx with direction := some .encrypt } : Context).Ready ctx.unitLen :=
      ⟨hk, hc.keeps (keeps_begin (begin_eq hk hdir)), rfl⟩
    have hw : p.length + ctx.unitLen ≤ MachineWord.max := by
      have := hc.unitLen_le
      have := MachineWord.maxBuffer_add_le
      omega
    obtain ⟨out, ctx', htb, -⟩ := hr.transformBuffer_ok .encrypt
      (Padding.length_pad_mod hr.unit_pos p f hw)
    exact ⟨out, by rw [encrypt_eq_transformBuffer hk hdir, htb]⟩
  · have hr : ({ ctx with direction := some .decrypt } : Context).Ready ctx.unitLen :=
      ⟨hk, hc.keeps (keeps_begin (begin_eq hk hdir)), rfl⟩
    intro w
    have hwle : w ≤ c.length := Padding.wholeUnits_le _ _
    have hwmod : (c.take w).length % ctx.unitLen = 0 := by
      rw [List.length_take, Nat.min_eq_left hwle]
      exact Padding.wholeUnits_mod hr.unit_pos _
    obtain ⟨plain, ctx', htb, hlen⟩ := hr.transformBuffer_ok .decrypt hwmod
    rw [List.length_take, Nat.min_eq_left hwle] at hlen
    refine ⟨hwle, plain, _, ctx', htb, hlen, decrypt_of_transformBuffer hk hdir htb f, ?_, ?_⟩
    · split
      · exact List.take_prefix _ _
      · exact List.prefix_refl _
    · rw [Padding.length_cut plain ctx.unitLen_pos f, hlen]

/-- IDEA under ECB keyed with the all-zero key enciphers three bytes, and deciphers eleven
bytes that no encryption wrote: one block, cut by whatever its last byte says. -/
theorem Reachable.transforms_total_idea :
    let ctx := ((⟨⟨"idea", 16, [16], 8, 8, true⟩, ⟨"ecb", true, true, false⟩,
      ⟨⟨"idea", .idea⟩, ⟨"ecb", .ecb⟩, none⟩, none, none, none⟩ : Context).key
        (Bytes.zeros 16) none).2
    let c : Bytes := [0, 1, 2, 3, 4, 5, 6, 7, 8, 9, 10]
    ctx.Reachable ∧ ctx.isKeyed = true ∧
      ((ctx.direction = none ∨ ctx.direction = some .encrypt) ∧
        [1, 2, 3].length ≤ MachineWord.maxBuffer ∧ ∃ out, (ctx.encrypt [1, 2, 3] true).1 = .ok out) ∧
      ((ctx.direction = none ∨ ctx.direction = some .decrypt) ∧
        Padding.wholeUnits c.length ctx.unitLen ≤ c.length ∧ ∃ plain out ctx',
          ({ ctx with direction := some .decrypt } : Context).transformBuffer .decrypt
            (c.take (Padding.wholeUnits c.length ctx.unitLen)) = (.ok plain, ctx') ∧
          plain.length = Padding.wholeUnits c.length ctx.unitLen ∧
          ctx.decrypt c true = (.ok out, ctx') ∧ out <+: plain ∧
          out.length = Padding.keptLen ctx.unitLen (Padding.wholeUnits c.length ctx.unitLen) true
            (plain.getLast?.getD 0)) := by
  intro ctx c
  have hreach : ctx.Reachable :=
    .key _ _ (.built (rfl : Catalog.load Manifest.tomlReader (.dir []) none none = .ok Catalog.builtin)
      (rfl : withCatalog Catalog.builtin "idea" "ecb" = _))
  have hk : ctx.isKeyed = true := by decide
  have hdir : ctx.direction = none := by decide
  exact ⟨hreach, hk, ⟨.inl hdir, by decide, (transforms_total hreach hk).1 _ _ (.inl hdir) (by decide)⟩,
    ⟨.inl hdir, (transforms_total hreach hk).2 c true (.inl hdir)⟩⟩

end Context

end CipherEngine
