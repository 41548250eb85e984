import SnmpAgent.Codec.Reader

/-!
# Grammars of reader methods

`Accepts x G` says what a method reads: on a bounded reader, `x` returns `a` exactly when the bytes
ahead are in the grammar `G` for `a`, and then it stops in front of the tail. Grammars compose as
the methods do (`Accepts.bind`, `Accepts.guard`, `Accepts.within`), so the grammar of a decoder is
read off its body.
-/

namespace SnmpAgent
open Rust Tlv BerReader

variable {α β : Type}

/-- `G off a tail bs`: at the absolute offset `off`, the bytes `bs` spell `a`, and `tail` is
left. -/
abbrev Grammar (α : Type) := Nat → α → Bytes → Bytes → Prop

structure Accepts (x : Act BerReader BerError α) (G : Grammar α) : Prop where
  run_eq_ok : ∀ {r r' : BerReader} {a : α}, r.Bounded →
    (x.run r = .ok (a, r') ↔ ∃ tail, G r.offset a tail r.rest ∧ r' = r.leaving tail)
  suffix : ∀ {off : Nat} {a : α} {tail bs : Bytes}, G off a tail bs → ∃ raw, bs = raw ++ tail

namespace Accepts
variable {x : Act BerReader BerError α} {G : Grammar α}

theorem congr {G' : Grammar α} (h : Accepts x G)
    (hG : ∀ off a tail bs, G off a tail bs ↔ G' off a tail bs) :
    Accepts x G' := by
  have : G = G' := by
    funext off a tail bs
    exact propext (hG off a tail bs)
  exact this ▸ h

theorem pure (a : α) :
    Accepts (Pure.pure a) fun _ b tail bs => b = a ∧ tail = bs where
  run_eq_ok {r r' b} _ := by
    rw [Act.pure_eq_ok]
    constructor
    · rintro ⟨rfl, rfl⟩
      exact ⟨_, ⟨rfl, rfl⟩, (leaving_rest _).symm⟩
    · rintro ⟨_, ⟨rfl, rfl⟩, rfl⟩
      exact ⟨rfl, leaving_rest r⟩
  suffix := fun ⟨_, h⟩ => ⟨[], h.symm⟩

theorem fail (e : BerError) :
    Accepts (Act.fail e : Act BerReader BerError α) fun _ _ _ _ => False where
  run_eq_ok _ := by simp
  suffix := False.elim

theorem lift (y : Res BerError α) :
    Accepts (Act.lift y) fun _ b tail bs => y = .ok b ∧ tail = bs where
  run_eq_ok {r r' b} _ := by
    rw [Act.lift_eq_ok]
    constructor
    · rintro ⟨h, rfl⟩
      exact ⟨_, ⟨h, rfl⟩, (leaving_rest _).symm⟩
    · rintro ⟨_, ⟨h, rfl⟩, rfl⟩
      exact ⟨h, leaving_rest r⟩
  suffix := fun ⟨_, h⟩ => ⟨[], h.symm⟩

theorem bind {f : α → Act BerReader BerError β} {H : α → Grammar β} (hx : Accepts x G)
    (hf : ∀ a, Accepts (f a) (H a)) :
    Accepts (x >>= f) fun off b tail bs =>
      ∃ a mid, G off a mid bs ∧ H a (off + (bs.length - mid.length)) b tail mid where
  run_eq_ok {r r' b} hr := by
    rw [Act.bind_eq_ok]
    constructor
    · rintro ⟨a, _, h, h'⟩
      obtain ⟨mid, hG, rfl⟩ := (hx.run_eq_ok hr).mp h
      obtain ⟨tail, hH, rfl⟩ := ((hf a).run_eq_ok (hr.leaving mid)).mp h'
      obtain ⟨raw, hraw⟩ := hx.suffix hG
      rw [rest_leaving hraw, offset_leaving] at hH
      obtain ⟨raw', hraw'⟩ := (hf a).suffix hH
      refine ⟨tail, ⟨a, mid, hG, hH⟩, ?_⟩
      exact leaving_leaving hraw hraw'
    · rintro ⟨tail, ⟨a, mid, hG, hH⟩, rfl⟩
      obtain ⟨raw, hraw⟩ := hx.suffix hG
      obtain ⟨raw', hraw'⟩ := (hf a).suffix hH
      refine ⟨a, r.leaving mid, (hx.run_eq_ok hr).mpr ⟨mid, hG, rfl⟩, ?_⟩
      rw [(hf a).run_eq_ok (hr.leaving mid), rest_leaving hraw, offset_leaving]
      exact ⟨tail, hH, (leaving_leaving hraw hraw').symm⟩
  suffix := by
    rintro off b tail bs ⟨a, mid, hG, hH⟩
    obtain ⟨raw, rfl⟩ := hx.suffix hG
    obtain ⟨raw', rfl⟩ := (hf a).suffix hH
    exact ⟨raw ++ raw', (List.append_assoc ..).symm⟩

theorem guard {c : Prop} [Decidable c] {e : BerError} (hx : Accepts x G) :
    Accepts (if c then .fail e else x) fun off a tail bs => ¬ c ∧ G off a tail bs where
  run_eq_ok hr := by
    rw [Act.guard_eq_ok, hx.run_eq_ok hr]
    simp only [and_assoc, exists_and_left]
  suffix h := hx.suffix h.2

/-- A method that looks at the offset of the reader. -/
theorem offset_bind {f : Nat → Act BerReader BerError α} {H : Nat → Grammar α}
    (hf : ∀ off, Accepts (f off) (H off)) :
    Accepts (get >>= fun r => f r.offset) fun off a tail bs => H off off a tail bs where
  run_eq_ok {r r' a} hr := by
    rw [← (hf r.offset).run_eq_ok hr, Act.bind_eq_ok]
    constructor
    · rintro ⟨_, _, h, h'⟩
      obtain ⟨rfl, rfl⟩ := Act.get_eq_ok.mp h
      exact h'
    · intro h
      exact ⟨r, r, Act.get_eq_ok.mpr ⟨rfl, rfl⟩, h⟩
  suffix h := (hf _).suffix h

/-- A method that looks at the next tag. -/
theorem peek_bind {f : UInt8 → Act BerReader BerError α} {H : UInt8 → Grammar α}
    (hf : ∀ tag, Accepts (f tag) (H tag)) :
    Accepts (do let tag ← (← get).peekTag; f tag) fun off a tail bs =>
      ∃ tag, bs.head? = some tag ∧ H tag off a tail bs where
  run_eq_ok {r r' a} hr := by
    simp only [Act.bind_eq_ok, Act.get_eq_ok, Act.liftM_eq_ok, peekTag_eq_ok]
    constructor
    · rintro ⟨_, _, ⟨rfl, rfl⟩, tag, _, ⟨htag, rfl⟩, h⟩
      obtain ⟨tail, hH, rfl⟩ := ((hf tag).run_eq_ok hr).mp h
      exact ⟨tail, ⟨tag, htag, hH⟩, rfl⟩
    · rintro ⟨tail, ⟨tag, htag, hH⟩, rfl⟩
      exact ⟨r, r, ⟨rfl, rfl⟩, tag, r, ⟨htag, rfl⟩, ((hf tag).run_eq_ok hr).mpr ⟨tail, hH, rfl⟩⟩
  suffix := fun ⟨_, _, h⟩ => (hf _).suffix h

/-- A method that takes all the bytes ahead, without moving. -/
theorem remaining_bind (f : Bytes → α) :
    Accepts (do let bytes ← Act.lift (← get).remaining; return f bytes) fun _ a tail bs =>
      a = f bs ∧ tail = bs where
  run_eq_ok {r r' a} hr := by
    simp only [Act.bind_eq_ok, Act.get_eq_ok, Act.lift_eq_ok, Act.pure_eq_ok]
    constructor
    · rintro ⟨_, _, ⟨rfl, rfl⟩, _, _, ⟨h, rfl⟩, rfl, rfl⟩
      rw [hr.remaining_eq] at h
      cases h
      exact ⟨_, ⟨rfl, rfl⟩, (leaving_rest _).symm⟩
    · rintro ⟨_, ⟨rfl, rfl⟩, rfl⟩
      exact ⟨r, r, ⟨rfl, rfl⟩, _, r, ⟨hr.remaining_eq, rfl⟩, rfl, leaving_rest r⟩
  suffix := fun ⟨_, h⟩ => ⟨[], h.symm⟩

theorem ite {c : Prop} [Decidable c] {y : Act BerReader BerError α} {H : Grammar α}
    (hx : Accepts x G) (hy : Accepts y H) :
    Accepts (if c then x else y) fun off a tail bs =>
      c ∧ G off a tail bs ∨ ¬ c ∧ H off a tail bs := by
  split
  · rename_i h
    exact hx.congr fun _ _ _ _ => by simp [h]
  · rename_i h
    exact hy.congr fun _ _ _ _ => by simp [h]

/-- The contents of a constructed TLV, read by another method; what it leaves is ignored. -/
theorem within (tag : UInt8) (f : α → β) (hx : Accepts x G) :
    Accepts (do
      let sub ← readConstructed tag
      let (a, _) ← Act.on sub x
      return f a) fun off b tail bs => ∃ a v rest, Field tag v tail bs ∧
        G (off + (bs.length - tail.length) - v.length) a rest v ∧ b = f a where
  run_eq_ok {r r' b} hr := by
    simp only [Act.bind_eq_ok, Act.liftM_eq_ok, Act.on_eq_ok, Act.pure_eq_ok,
      readConstructed_eq_ok hr]
    constructor
    · rintro ⟨sub, _, ⟨v, tail, H, rfl, rfl⟩, ⟨a, _⟩, _, ⟨h, rfl⟩, rfl, rfl⟩
      obtain ⟨rest, hG, -⟩ := (hx.run_eq_ok (bounded_newWithOffset H _)).mp h
      rw [offset_leaving] at hG
      exact ⟨tail, ⟨a, v, rest, H, hG, rfl⟩, rfl⟩
    · rintro ⟨tail, ⟨a, v, rest, H, hG, rfl⟩, rfl⟩
      have h := (hx.run_eq_ok (bounded_newWithOffset H
        (r.offset + (r.rest.length - tail.length) - v.length))).mpr ⟨rest, hG, rfl⟩
      exact ⟨_, _, ⟨v, tail, H, rfl, by rw [offset_leaving]⟩, (a, _), _, ⟨h, rfl⟩, rfl, rfl⟩
  suffix := fun ⟨_, _, _, ⟨raw, _, h⟩, _⟩ => ⟨raw, h⟩

end Accepts

theorem accepts_readInteger : Accepts readInteger fun _ n tail bs => IntField n tail bs where
  run_eq_ok hr := readInteger_eq_ok hr
  suffix := fun ⟨_, ⟨raw, _, h⟩, _⟩ => ⟨raw, h⟩

theorem accepts_readOctetString :
    Accepts readOctetString fun _ v tail bs => Field tagOctetString v tail bs where
  run_eq_ok hr := readOctetString_eq_ok hr
  suffix := fun ⟨raw, _, h⟩ => ⟨raw, h⟩

end SnmpAgent
