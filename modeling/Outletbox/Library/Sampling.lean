import Mathlib

/-!
# Rejection sampling

A source is read symbol by symbol; a symbol picks a value or is rejected.  A
sampler can exchange two values: it has a map of the source that does so and
rejects what was rejected.

The first `k` values picked from a source of a fixed length are then every list
of `k` values equally often: the source is rewritten, symbol by symbol, so that
another list comes out, and rewriting back undoes it.
-/

namespace Sampling

/-- Symbols that pick values. -/
structure Sampler (β γ : Type) [DecidableEq γ] where
  pick : β → Option γ
  exchange : γ → γ → β → β
  exchange_exchange : ∀ c d b, exchange d c (exchange c d b) = b
  pick_exchange : ∀ c d b, pick (exchange c d b) = (pick b).map (Equiv.swap c d)

variable {β γ : Type} [DecidableEq γ] (S : Sampler β γ)

namespace Sampler

/-- The values picked from a source. -/
def picks (source : List β) : List γ := source.filterMap S.pick

/-- Rewrites a source from which the values `cs` are picked first, for the values `ds`. -/
def retarget : List γ → List γ → List β → List β
  | c :: cs, d :: ds, b :: source =>
      match S.pick b with
      | some _ => S.exchange c d b :: retarget cs ds source
      | none => b :: retarget (c :: cs) (d :: ds) source
  | _, _, source => source

theorem length_retarget (cs ds : List γ) (source : List β) :
    (S.retarget cs ds source).length = source.length := by
  fun_induction retarget S cs ds source with
  | case1 c cs d ds b source v hb ih => rw [List.length_cons, List.length_cons, ih]
  | case2 c cs d ds b source hb ih => rw [List.length_cons, List.length_cons, ih]
  | case3 => rfl

/-- Rewriting back. -/
theorem retarget_retarget (cs ds : List γ) (source : List β) :
    S.retarget ds cs (S.retarget cs ds source) = source := by
  fun_induction retarget S cs ds source with
  | case1 c cs d ds b source v hb ih =>
      rw [retarget, S.pick_exchange, hb, S.exchange_exchange, ih]
      rfl
  | case2 c cs d ds b source hb ih => rw [retarget, hb, ih]
  | case3 cs ds source h =>
      cases cs with
      | nil => cases ds <;> cases source <;> rfl
      | cons c cs =>
          cases ds with
          | nil => cases source <;> rfl
          | cons d ds =>
              cases source with
              | nil => rfl
              | cons b source => exact absurd rfl (h c cs d ds b source rfl rfl)

/-- A rewritten source gives the other values. -/
theorem picks_retarget {cs ds : List γ} {source : List β} (hlength : cs.length = ds.length)
    (h : (S.picks source).take cs.length = cs) :
    (S.picks (S.retarget cs ds source)).take ds.length = ds := by
  induction source generalizing cs ds with
  | nil =>
      have hcs : cs = [] := by simpa only [picks, List.filterMap_nil, List.take_nil] using h.symm
      rw [hcs, List.length_nil, eq_comm, List.length_eq_zero_iff] at hlength
      rw [hlength, List.length_nil, List.take_zero]
  | cons b source ih =>
      cases cs with
      | nil =>
          rw [List.length_nil, eq_comm, List.length_eq_zero_iff] at hlength
          rw [hlength, List.length_nil, List.take_zero]
      | cons c cs =>
          cases ds with
          | nil => cases hlength
          | cons d ds =>
              cases hb : S.pick b with
              | none =>
                  rw [picks, List.filterMap_cons_none hb] at h
                  rw [retarget, hb, picks, List.filterMap_cons_none hb]
                  exact ih hlength h
              | some v =>
                  rw [picks, List.filterMap_cons_some hb, List.length_cons, List.take_succ_cons,
                    List.cons.injEq] at h
                  obtain ⟨rfl, h⟩ := h
                  have hd : S.pick (S.exchange v d b) = some d := by
                    rw [S.pick_exchange, hb, Option.map_some, Equiv.swap_apply_left]
                  rw [retarget, hb, picks, List.filterMap_cons_some hd, List.length_cons,
                    List.take_succ_cons]
                  exact congrArg (d :: ·) (ih (Nat.succ.inj hlength) h)

/-- Each list of values is picked first from equally many sources of a length. -/
theorem card_picks {cs ds : List γ} [Fintype β] (hlength : cs.length = ds.length) (N : Nat)
    [DecidableEq β] :
    Fintype.card {source : List.Vector β N // (S.picks source.toList).take cs.length = cs} =
      Fintype.card {source : List.Vector β N // (S.picks source.toList).take ds.length = ds} := by
  refine Fintype.card_congr
    { toFun := fun s => ⟨⟨S.retarget cs ds s.1.toList, ?_⟩, ?_⟩
      invFun := fun s => ⟨⟨S.retarget ds cs s.1.toList, ?_⟩, ?_⟩
      left_inv := fun s => ?_
      right_inv := fun s => ?_ }
  · rw [length_retarget]
    exact s.1.toList_length
  · exact S.picks_retarget hlength s.2
  · rw [length_retarget]
    exact s.1.toList_length
  · exact S.picks_retarget hlength.symm s.2
  · exact Subtype.ext (Subtype.ext (S.retarget_retarget cs ds s.1.toList))
  · exact Subtype.ext (Subtype.ext (S.retarget_retarget ds cs s.1.toList))

end Sampler

/-! ## Bytes and remainders -/

section

variable {m q x r : Nat}

theorem block_lt (hx : x < m * q) (hr : r < m) : m * (x / m) + r < m * q := by
  have hdiv : x / m + 1 ≤ q := Nat.div_lt_of_lt_mul hx
  have hmul : m * (x / m) + m ≤ m * q := by
    rw [← Nat.mul_succ]
    exact Nat.mul_le_mul_left m hdiv
  omega

theorem toNat_block (hq : m * q ≤ 256) (hx : x < m * q) (hr : r < m) :
    (UInt8.ofNat (m * (x / m) + r)).toNat = m * (x / m) + r :=
  UInt8.toNat_ofNat_of_lt' ((block_lt hx hr).trans_le hq)

theorem block_mod (hr : r < m) : (m * (x / m) + r) % m = r := by
  rw [Nat.mul_add_mod, Nat.mod_eq_of_lt hr]

theorem block_div (hr : r < m) : (m * (x / m) + r) / m = x / m := by
  rw [Nat.mul_add_div (Nat.zero_lt_of_lt hr), Nat.div_eq_of_lt hr, Nat.add_zero]

end

/-- The remainder a byte below `m * q` picks. -/
def remainder (m q : Nat) (hm : 0 < m) (b : UInt8) : Option (Fin m) :=
  if b.toNat < m * q then some ⟨b.toNat % m, Nat.mod_lt _ hm⟩ else none

/-- A byte below `m * q` with its remainder exchanged. -/
def exchangeRemainder (m q : Nat) (hm : 0 < m) (c d : Fin m) (b : UInt8) : UInt8 :=
  if b.toNat < m * q then
    UInt8.ofNat (m * (b.toNat / m) + (Equiv.swap c d ⟨b.toNat % m, Nat.mod_lt _ hm⟩).val)
  else b

/-- A byte picks its remainder by `m`, when it is below `m * q`. -/
def residue (m q : Nat) (hm : 0 < m) (hq : m * q ≤ 256) : Sampler UInt8 (Fin m) where
  pick := remainder m q hm
  exchange := exchangeRemainder m q hm
  exchange_exchange c d b := by
    by_cases hb : b.toNat < m * q
    swap
    · rw [exchangeRemainder, exchangeRemainder, if_neg hb, if_neg hb]
    have hswap := (Equiv.swap c d ⟨b.toNat % m, Nat.mod_lt _ hm⟩).isLt
    have htoNat := toNat_block hq hb hswap
    refine UInt8.toNat_inj.1 ?_
    rw [exchangeRemainder, exchangeRemainder, if_pos hb, if_pos (by rw [htoNat]; exact block_lt hb hswap)]
    simp only [htoNat, block_mod hswap, block_div hswap, Fin.eta, Equiv.swap_comm d c,
      Equiv.swap_apply_self]
    rw [Nat.div_add_mod, UInt8.ofNat_toNat]
  pick_exchange c d b := by
    by_cases hb : b.toNat < m * q
    swap
    · rw [exchangeRemainder, if_neg hb, remainder, if_neg hb]
      rfl
    have hswap := (Equiv.swap c d ⟨b.toNat % m, Nat.mod_lt _ hm⟩).isLt
    have htoNat := toNat_block hq hb hswap
    rw [exchangeRemainder, if_pos hb, remainder, remainder, if_pos hb,
      if_pos (by rw [htoNat]; exact block_lt hb hswap)]
    simp only [htoNat, block_mod hswap, Fin.eta, Option.map_some]

end Sampling
