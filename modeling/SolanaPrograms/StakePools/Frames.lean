import SolanaPrograms.StakePools.Machine

/-!
# What calls leave alone

A call of the stake program changes nothing but stake accounts and lamports, a call of the token
program nothing but mints and token accounts. The parts of the handlers inherit this, so that an
instruction writes, after its calls, the record of its pool and a list of validators.
-/

namespace SolanaPrograms.StakePools

open Function Outcome World StakePool

/-- Only stake accounts and lamports differ. -/
structure StakesOnly (w w' : World) : Prop where
  data : w'.data = w.data
  tokens : w'.tokens = w.tokens
  epoch : w'.epoch = w.epoch

def Moves (w w' : World) (Q : Address) (minted burnt : ℕ) : Prop :=
  ∀ k x s, w.tokens.HasMint k x s → ∃ n, w'.tokens.HasMint k x n ∧
    n + (if Q = k then burnt else 0) = s + if Q = k then minted else 0

/-- Calls of other programs. -/
structure Called (w w' : World) (Q : Address) (minted burnt : ℕ) : Prop where
  data : w'.data = w.data
  epoch : w'.epoch = w.epoch
  moves : Moves w w' Q minted burnt

section Frames

variable {env : Environment} {w w' w'' : World} {amount minted burnt : ℕ}
  {x y z k Q authority : Address} {account : AccountMeta}

theorem StakesOnly.refl (w : World) : StakesOnly w w := ⟨rfl, rfl, rfl⟩

theorem StakesOnly.trans (h : StakesOnly w w') (h' : StakesOnly w' w'') : StakesOnly w w'' :=
  ⟨h'.data.trans h.data, h'.tokens.trans h.tokens, h'.epoch.trans h.epoch⟩

/-! ## Stake accounts and lamports -/

theorem stakesOnly_callStake {signed : Address → Bool} {i : Stakes.Instruction Address}
    (h : w.callStake env signed i = .ok w') : StakesOnly w w' := by
  obtain ⟨_, -, rfl⟩ := callStake_eq_ok.mp h
  exact ⟨rfl, rfl, rfl⟩

theorem stakesOnly_systemTransfer (h : w.systemTransfer account k amount = .ok w') :
    StakesOnly w w' := by
  simp only [systemTransfer, failIf_bind_eq_ok, pure_eq_ok] at h
  rw [← h.2]
  exact ⟨rfl, rfl, rfl⟩

theorem stakesOnly_allocateStake (h : w.allocateStake k = .ok w') : StakesOnly w w' := by
  simp only [allocateStake, failIf_bind_eq_ok, pure_eq_ok] at h
  rw [← h.2]
  exact ⟨rfl, rfl, rfl⟩

theorem stakesOnly_createPdaAccount (h : w.createPdaAccount account amount k = .ok w') :
    StakesOnly w w' := by
  simp only [createPdaAccount] at h
  split at h
  · split at h
    · obtain ⟨_, htransfer, hallocate⟩ := bind_eq_ok.mp h
      exact (stakesOnly_systemTransfer htransfer).trans (stakesOnly_allocateStake hallocate)
    · exact stakesOnly_allocateStake h
  · obtain ⟨_, htransfer, hallocate⟩ := bind_eq_ok.mp h
    exact (stakesOnly_systemTransfer htransfer).trans (stakesOnly_allocateStake hallocate)

theorem stakesOnly_stakeAuthorize (h : w.stakeAuthorize env x y z = .ok w') : StakesOnly w w' := by
  simp only [stakeAuthorize, bind_eq_ok] at h
  obtain ⟨_, hw₁, hw'⟩ := h
  exact (stakesOnly_callStake hw₁).trans (stakesOnly_callStake hw')

theorem stakesOnly_takeOver (h : w.takeOver env x y z account = .ok w') : StakesOnly w w' := by
  simp only [takeOver, failIf_bind_eq_ok] at h
  exact stakesOnly_stakeAuthorize h.2

theorem stakesOnly_withdrawToReserve (h : w.withdrawToReserve env x y z amount = .ok w') :
    StakesOnly w w' := by
  unfold withdrawToReserve at h
  split at h
  · exact stakesOnly_callStake h
  · cases h
    exact .refl w

/-! ## Mints and token accounts -/

theorem StakesOnly.called (h : StakesOnly w w') (Q : Address) : Called w w' Q 0 0 := by
  refine ⟨h.data, h.epoch, fun k x s hs => ⟨s, ?_, by split_ifs <;> rfl⟩⟩
  rwa [h.tokens]

theorem Called.refl (w : World) (Q : Address) : Called w w Q 0 0 := (StakesOnly.refl w).called Q

theorem Called.trans {minted' burnt' : ℕ} (h : Called w w' Q minted burnt)
    (h' : Called w' w'' Q minted' burnt') : Called w w'' Q (minted + minted') (burnt + burnt') := by
  refine ⟨h'.data.trans h.data, h'.epoch.trans h.epoch, fun k x s hs => ?_⟩
  obtain ⟨n, hn, hns⟩ := h.moves k x s hs
  obtain ⟨n', hn', hnn'⟩ := h'.moves k x n hn
  refine ⟨n', hn', ?_⟩
  split_ifs at hns hnn' ⊢ <;> omega

theorem Called.stakes (h : Called w w' Q minted burnt) (hs : StakesOnly w' w'') :
    Called w w'' Q minted burnt := h.trans (hs.called Q)

theorem called_tokenMintTo (h : w.tokenMintTo Q x y amount = .ok w') : Called w w' Q amount 0 := by
  obtain ⟨_, ht, rfl⟩ := callToken_eq_ok.mp h
  exact ⟨rfl, rfl, fun k x s hs => ⟨_, hs.mintTo ht, by split_ifs <;> rfl⟩⟩

theorem called_mintIfPositive (h : w.mintIfPositive Q x y amount = .ok w') :
    Called w w' Q amount 0 := by
  unfold mintIfPositive at h
  split at h
  · exact called_tokenMintTo h
  · next hzero =>
    cases h
    obtain rfl : amount = 0 := by omega
    exact .refl w Q

theorem called_mintShares {u : Address} {shares : DepositShares}
    (h : w.mintShares Q x y z u shares = .ok w') :
    Called w w' Q (shares.user + shares.manager + shares.referrer) 0 := by
  simp only [mintShares, bind_eq_ok] at h
  obtain ⟨_, hw₁, _, hw₂, hw'⟩ := h
  exact ((called_tokenMintTo hw₁).trans (called_mintIfPositive hw₂)).trans
    (called_mintIfPositive hw')

theorem called_tokenBurn (h : w.tokenBurn x Q account amount = .ok w') :
    Called w w' Q 0 amount := by
  simp only [tokenBurn, failIf_bind_eq_ok] at h
  obtain ⟨_, ht, rfl⟩ := callToken_eq_ok.mp h.2
  refine ⟨rfl, rfl, fun k x s hs => ?_⟩
  obtain ⟨n, hn, hns⟩ := hs.burn ht
  exact ⟨n, hn, by split_ifs at hns ⊢ <;> omega⟩

theorem called_transferFee (h : w.transferFee x y account amount = .ok w') (Q : Address) :
    Called w w' Q 0 0 := by
  unfold transferFee at h
  split at h
  · simp only [tokenTransfer, failIf_bind_eq_ok] at h
    obtain ⟨_, ht, rfl⟩ := callToken_eq_ok.mp h.2
    exact ⟨rfl, rfl, fun k x s hs => ⟨s, hs.transfer ht, by split_ifs <;> rfl⟩⟩
  · cases h
    exact .refl w Q

/-! ## The update of the list -/

variable {noMerge : Bool}

theorem stakesOnly_settleTransient {status status' : StakeStatus} {lamports : ℕ}
    (h : w.settleTransient env authority x y z noMerge status = .ok (w', lamports, status')) :
    StakesOnly w w' := by
  have hmerge : ∀ {status' : StakeStatus} {lamports : ℕ},
      w.mergeIntoReserve env authority x z status = .ok (w', lamports, status') →
      StakesOnly w w' := by
    intro status' lamports hm
    simp only [mergeIntoReserve, checks] at hm
    obtain ⟨_, hw₁, rfl, -⟩ := hm
    exact stakesOnly_callStake hw₁
  have hsame : ∀ {r : ℕ × StakeStatus},
      (.ok (w, r) : Except Fault _) = .ok (w', lamports, status') → StakesOnly w w' := by
    intro r hr
    cases hr
    exact .refl w
  unfold settleTransient at h
  split at h
  next m _ =>
    split at h
    · split at h
      · exact hsame h
      · exact hmerge h
    · exact hsame h
  next m d _ =>
    split at h
    · dsimp only at h
      split at h
      · exact hsame h
      · split at h
        · exact hmerge h
        · split at h
          · split at h
            · split at h
              · simp only [checks, mergeIntoValidator] at h
                obtain ⟨_, ⟨_, hw₂, hw₁⟩, rfl, -⟩ := h
                refine (stakesOnly_callStake hw₂).trans ?_
                split at hw₁
                · exact stakesOnly_callStake hw₁
                · cases hw₁
                  exact .refl _
              · exact hsame h
            · exact hsame h
          · exact hsame h
    · exact hsame h
  next => exact hsame h

theorem stakesOnly_updateEntry {info info' : ValidatorStakeInfo} {u v : Address}
    (h : w.updateEntry env x authority y noMerge info u v = .ok (w', info')) : StakesOnly w w' := by
  unfold updateEntry at h
  split at h
  · cases h
    exact .refl w
  · simp only [checks] at h
    obtain ⟨_, _, _, hw₁, _, -, rfl, -⟩ := h
    exact stakesOnly_settleTransient hw₁

theorem stakesOnly_updateEntries {infos infos' : List ValidatorStakeInfo}
    {accounts : List AccountMeta}
    (h : w.updateEntries env x authority y noMerge infos accounts = .ok (w', infos')) :
    StakesOnly w w' := by
  induction w, infos, accounts using updateEntries.induct generalizing infos' with
  | case1 _ _ _ _ _ _ ih =>
    simp only [updateEntries, checks] at h
    obtain ⟨w₁, _, hinfo, _, _, hinfos, rfl, -⟩ := h
    exact (stakesOnly_updateEntry hinfo).trans (ih w₁ hinfos)
  | case2 _ _ _ hshort =>
    rw [updateEntries.eq_2 _ _ _ _ _ _ _ _ hshort] at h
    cases h
    exact .refl _

end Frames

/-! ## The accounts of the program -/

structure Elsewhere (A : Address) (w w' : World) : Prop where
  epoch : w'.epoch = w.epoch
  data : ∀ B, B ≠ A → w'.data B = w.data B ∨
    (∃ l, w'.data B = .validatorList l) ∧ ∀ q, w.data B ≠ .stakePool q

/-- After calls that mint and burn so much at `Q`, the pool at `A` has become `p'`. -/
structure Wrote (A : Address) (w w' : World) (p' : StakePool) (Q : Address) (minted burnt : ℕ) :
    Prop where
  elsewhere : Elsewhere A w w'
  pool : w'.data A = .stakePool p'
  moves : Moves w w' Q minted burnt

section Elsewhere

variable {env : Environment} {w w' v : World} {A L B Q : Address} {i : StakePoolInstruction}
  {accounts : List AccountMeta} {p p' : StakePool} {l : ValidatorList} {minted burnt : ℕ}
  {e : Event}

theorem pool_ne_list (hp : w.data A = .stakePool p) (hl : w.data L = .validatorList l) :
    A ≠ L := by
  rintro rfl
  rw [hp] at hl
  cases hl

theorem Called.elsewhere (h : Called w w' Q minted burnt) (A : Address) : Elsewhere A w w' :=
  ⟨h.epoch, fun B _ => .inl (by rw [h.data])⟩

theorem Elsewhere.writePool (h : Elsewhere A w v) (d : Data) : Elsewhere A w (v.writeData A d) := by
  refine ⟨h.epoch, fun B hB => ?_⟩
  rw [show (v.writeData A d).data B = v.data B from update_of_ne hB _ _]
  exact h.data B hB

theorem Elsewhere.writeList (h : Elsewhere A w v) (hL : ∀ q, w.data L ≠ .stakePool q)
    (l : ValidatorList) : Elsewhere A w (v.writeData L (.validatorList l)) := by
  refine ⟨h.epoch, fun B hB => ?_⟩
  by_cases hBL : B = L
  · subst hBL
    exact .inr ⟨⟨l, update_self ..⟩, hL⟩
  · rw [show (v.writeData L (.validatorList l)).data B = v.data B from
      update_of_ne hBL _ _]
    exact h.data B hB

theorem Called.wrote (h : Called w w' Q minted burnt) (hp : w.data A = .stakePool p) :
    Wrote A w w' p Q minted burnt := ⟨h.elsewhere A, by rw [h.data, hp], h.moves⟩

theorem Wrote.writePool (h : Wrote A w v p Q minted burnt) (p' : StakePool) :
    Wrote A w (v.writeData A (.stakePool p')) p' Q minted burnt :=
  ⟨h.elsewhere.writePool _, update_self .., h.moves⟩

theorem Wrote.writeList (h : Wrote A w v p' Q minted burnt) (hp : w.data A = .stakePool p)
    (hl : w.data L = .validatorList l) (l' : ValidatorList) :
    Wrote A w (v.writeData L (.validatorList l')) p' Q minted burnt := by
  refine ⟨h.elsewhere.writeList (fun q hq => ?_) l',
    (update_of_ne (pool_ne_list hp hl) _ _).trans h.pool, h.moves⟩
  exact pool_ne_list hq hl rfl

theorem StakesOnly.wrote (h : StakesOnly w v) (hp : w.data A = .stakePool p) :
    Wrote A w v p p.poolMint 0 0 := (h.called _).wrote hp

theorem StakesOnly.wroteList (h : StakesOnly w v) (hp : w.data A = .stakePool p)
    (hl : w.data L = .validatorList l) (l' : ValidatorList) :
    Wrote A w (v.writeData L (.validatorList l')) p p.poolMint 0 0 :=
  (h.wrote hp).writeList hp hl l'

end Elsewhere

end SolanaPrograms.StakePools
