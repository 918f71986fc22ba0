/-
The callback of Platega takes one thing from the body of a request, the
transaction id, and believes only the gateway's own answer about it.

* `plategaCallback_congr`: requests with a right secret and the same id run the
  same program;
* `runs_plategaNudge`: what a nudge does, by the gateway's answer;
* `callback_body_proves_nothing`: requests with the same id have the same outcomes,
  accounts and devices change only when the gateway confirms the whole amount of the
  order, and a wrong secret changes nothing.
-/
import VpnPortal.Lifecycle.Sequential

namespace VpnPortal

open Sessions Tables

/-- The gateway answers by the function `ans`; everything else is free. -/
def Answering (ans : String → Option Json) : World → Input → Prop := fun _ i => i.gateway = ans

/-- The gateway confirms the order `p`, for its whole amount. -/
def ConfirmedBy (cfg : Settings) (ans : String → Option Json) (txn : String) (p : Payment) : Prop :=
  ∃ status, ans txn = some (.obj status) ∧ (Json.get status "status").isStr "CONFIRMED" = true
    ∧ paidAmount cfg status = some (some p.amount)

/-- The gateway reports the state `real`. -/
def ReportedBy (ans : String → Option Json) (txn real : String) : Prop :=
  ∃ status, ans txn = some (.obj status) ∧ (Json.get status "status").isStr real = true

/-- The order of a transaction. -/
def OrderOf (db : Db) (txn : String) (p : Payment) : Prop :=
  db.payments.find p.id = some p ∧ p.provider = some "platega" ∧ p.providerRef = some txn

/-- The id is all that a request with a right secret contributes. -/
lemma plategaCallback_congr (cfg : Settings) {req₁ req₂ : CallbackRequest}
    {body₁ body₂ : List (String × Json)} (hs₁ : secretMatches cfg req₁.secret = .ok true)
    (hs₂ : secretMatches cfg req₂.secret = .ok true) (hb₁ : req₁.body = some (.obj body₁))
    (hb₂ : req₂.body = some (.obj body₂)) (hid : Json.get body₁ "id" = Json.get body₂ "id") :
    plategaCallback cfg req₁ = plategaCallback cfg req₂ := by
  have htxn : req₁.txn? cfg = req₂.txn? cfg := by
    unfold CallbackRequest.txn?
    rw [hb₁, hb₂]
    dsimp only
    rw [hid]
  unfold plategaCallback
  rw [hs₁, hs₂, htxn]

/-- A request gets past the secret only with the configured one, which is not
empty. -/
lemma secret_of_matches {cfg : Settings} {supplied : Option String}
    (h : secretMatches cfg supplied = .ok true) :
    supplied = some cfg.plategaSecret ∧ cfg.plategaSecret ≠ "" := by
  unfold secretMatches at h
  split at h
  · cases h
  rename_i hne
  dsimp only at h
  split at h
  · have hgiven : supplied.getD "" = cfg.plategaSecret := by
      simpa using Except.ok.inj h
    cases supplied with
    | none => exact absurd hgiven.symm hne
    | some secret => exact ⟨by rw [← hgiven]; rfl, hne⟩
  · cases h

/-- A confirmed order, alone: its own row and account, and nothing of another
order. -/
lemma runs_confirm {J : World → Input → Prop} (cfg : Settings) {p : Payment} {w w' : World}
    {r : Except Exn Response} (h : Proc.Runs J (confirm cfg p) w r w') {n : ℕ} (hn : n ≠ p.id) :
    w'.db.payments.find n = w.db.payments.find n := by
  have honce := once_confirm (View.db J w.db) cfg p
  have hend := (alone_of_once (S := fun _ _ => True) honce trivial (fun _ _ => trivial)
    fun _ _ _ _ => trivial).runs h
  rcases hend.2 with ⟨hdb, -⟩ | ⟨db₁, off, ⟨user, -, a, ha, -, rfl⟩, hdb, -⟩
  · rw [hdb]
  · rw [hdb, Db.foldl_deactivate]
    exact ha.find_payment_of_ne hn

/-- What a nudge does: nothing, or what the gateway's answer about its own order
says. -/
lemma runs_plategaNudge {ans : String → Option Json} (cfg : Settings) {txn : String} {w w' : World}
    {r : Except Exn Response} (h : Proc.Runs (Answering ans) (plategaNudge cfg txn) w r w') :
    w' = w ∨ ∃ p, OrderOf w.db txn p ∧
      ((ConfirmedBy cfg ans txn p ∧ ∀ n, n ≠ p.id →
          w'.db.payments.find n = w.db.payments.find n)
        ∨ (ReportedBy ans txn "CHARGEBACKED" ∧ w' = { w with
            db := w.db.savePayment p { p with status := "chargebacked" } })
        ∨ (ReportedBy ans txn "CANCELED" ∧ w' = { w with
            db := w.db.savePayment p { p with status := "canceled" } })) := by
  unfold plategaNudge at h
  split at h
  · exact Or.inl h.2
  obtain ⟨-, h⟩ := Proc.runs_look.mp h
  dsimp only at h
  cases hrows : w.db.payments.rows.filter fun p =>
      p.providerRef = some txn ∧ p.provider = some "platega" with
  | nil => rw [hrows] at h; exact Or.inl h.2
  | cons p rest =>
      rw [hrows] at h
      cases rest with
      | cons _ _ => exact Or.inl h.2
      | nil =>
          have hmem : p ∈ w.db.payments.rows.filter fun p =>
              p.providerRef = some txn ∧ p.provider = some "platega" := by rw [hrows]; simp
          obtain ⟨hp, hq⟩ := List.mem_filter.mp hmem
          obtain ⟨href, hprov⟩ := of_decide_eq_true hq
          have horder : OrderOf w.db txn p := ⟨Table.find_of_mem hp, hprov, href⟩
          change Proc.Runs _ (if p.status = "paid" then pure Response.ok else _) w r w' at h
          split at h
          · exact Or.inl h.2
          obtain ⟨i, hi, h⟩ := Proc.runs_ask.mp h
          have hans : i.gateway txn = ans txn := by rw [show i.gateway = ans from hi]
          rw [hans] at h
          split at h
          · exact Or.inl h.2
          · exact Or.inl h.2
          · rename_i status hstatus
            unfold plategaStatus at h
            dsimp only at h
            split at h
            · rename_i hreal
              split at h
              · exact Or.inl h.2
              rename_i amount hamount
              split at h
              · rename_i heq
                have hconf : ConfirmedBy cfg ans txn p :=
                  ⟨status, hstatus, hreal, by rw [hamount, heq]⟩
                exact Or.inr ⟨p, horder, Or.inl ⟨hconf, fun n hn => runs_confirm cfg h hn⟩⟩
              · exact Or.inl h.2
            split at h
            · rename_i hreal
              obtain ⟨-, -, -, rfl⟩ := h
              exact Or.inr ⟨p, horder, Or.inr (Or.inl ⟨⟨status, hstatus, hreal⟩, rfl⟩)⟩
            split at h
            · rename_i hreal
              obtain ⟨-, -, -, rfl⟩ := h
              exact Or.inr ⟨p, horder, Or.inr (Or.inr ⟨⟨status, hstatus, hreal⟩, rfl⟩)⟩
            · exact Or.inl h.2
          · exact Or.inl h.2

/-- A recorded status: the row of the order, and no other. -/
lemma find_savePayment_status {db : Db} {p : Payment} (hp : db.payments.find p.id = some p)
    (status : String) (n : ℕ) :
    (db.savePayment p { p with status := status }).payments.find n = db.payments.find n
      ∨ (n = p.id ∧ (db.savePayment p { p with status := status }).payments.find n
          = some { p with status := status }) := by
  by_cases hn : n = p.id
  · refine Or.inr ⟨hn, ?_⟩
    have hfind := find_saveOrder_self { p with status := status } hp
    have hmerge : Payment.merge p { p with status := status } p = { p with status := status } := by
      simp [Payment.merge]
    rw [hmerge] at hfind
    rw [hn]
    exact hfind
  · exact Or.inl (find_saveOrder_of_ne hn)

/-- The payment rows after a callback. -/
lemma payment_change_of_callback {ans : String → Option Json} {cfg : Settings} {txn : String}
    {w w' : World} {r : Except Exn Response}
    (h : Proc.Runs (Answering ans) (plategaNudge cfg txn) w r w') {n : ℕ}
    (hn : w'.db.payments.find n ≠ w.db.payments.find n) :
    ∃ p, OrderOf w.db txn p ∧ p.id = n ∧ (ConfirmedBy cfg ans txn p
      ∨ (ReportedBy ans txn "CHARGEBACKED"
          ∧ w'.db.payments.find n = some { p with status := "chargebacked" })
      ∨ (ReportedBy ans txn "CANCELED"
          ∧ w'.db.payments.find n = some { p with status := "canceled" })) := by
  rcases runs_plategaNudge cfg h with rfl | ⟨p, hp, ⟨hc, hother⟩ | ⟨hrep, rfl⟩ | ⟨hrep, rfl⟩⟩
  · exact absurd rfl hn
  · by_cases hne : n = p.id
    · exact ⟨p, hp, hne.symm, Or.inl hc⟩
    · exact absurd (hother n hne) hn
  · rcases find_savePayment_status hp.1 "chargebacked" n with heq | ⟨hid, heq⟩
    · exact absurd heq hn
    · exact ⟨p, hp, hid.symm, Or.inr (Or.inl ⟨hrep, heq⟩)⟩
  · rcases find_savePayment_status hp.1 "canceled" n with heq | ⟨hid, heq⟩
    · exact absurd heq hn
    · exact ⟨p, hp, hid.symm, Or.inr (Or.inr ⟨hrep, heq⟩)⟩

/-- Accounts, ledger, rewards, devices and nodes after a callback. -/
lemma effect_of_callback {ans : String → Option Json} {cfg : Settings} {txn : String}
    {w w' : World} {r : Except Exn Response}
    (h : Proc.Runs (Answering ans) (plategaNudge cfg txn) w r w')
    (hch : w'.db.users ≠ w.db.users ∨ w'.db.creditEntries ≠ w.db.creditEntries
      ∨ w'.db.referralRewards ≠ w.db.referralRewards ∨ w'.db.configs ≠ w.db.configs
      ∨ w'.node ≠ w.node) :
    ∃ p, OrderOf w.db txn p ∧ ConfirmedBy cfg ans txn p := by
  rcases runs_plategaNudge cfg h with rfl | ⟨p, hp, ⟨hc, -⟩ | ⟨-, rfl⟩ | ⟨-, rfl⟩⟩
  · simp at hch
  · exact ⟨p, hp, hc⟩
  · simp [Db.savePayment] at hch
  · simp [Db.savePayment] at hch

/-- A run of the callback that is not refused is a run of its nudge. -/
lemma runs_plategaCallback {J : World → Input → Prop} {cfg : Settings} {req : CallbackRequest}
    {w w' : World} {r : Except Exn Response}
    (h : Proc.Runs J (plategaCallback cfg req) w r w') :
    w' = w ∨ secretMatches cfg req.secret = .ok true ∧ ∃ txn, req.txn? cfg = some txn
      ∧ Proc.Runs J (plategaNudge cfg txn) w r w' := by
  unfold plategaCallback at h
  split at h
  · exact Or.inl h.2
  · exact Or.inl h.2
  · rename_i hsecret
    split at h
    · exact Or.inl h.2
    · rename_i txn htxn
      exact Or.inr ⟨hsecret, txn, htxn, h⟩

/-- **A callback body proves nothing.** Whatever the gateway answers: two
requests with a right secret and the same id have the same outcomes in every
environment; accounts, ledger, rewards, devices and nodes change only when the
gateway confirms the whole amount of the order with that id; an order changes
only then, or to the state the gateway reports for it; and without the right
secret nothing changes. -/
theorem callback_body_proves_nothing (cfg : Settings) (ans : String → Option Json) :
    (∀ req₁ req₂ body₁ body₂, secretMatches cfg req₁.secret = .ok true →
      secretMatches cfg req₂.secret = .ok true → req₁.body = some (.obj body₁) →
      req₂.body = some (.obj body₂) → Json.get body₁ "id" = Json.get body₂ "id" →
      ∀ J w r w', Proc.Runs J (plategaCallback cfg req₁) w r w'
        ↔ Proc.Runs J (plategaCallback cfg req₂) w r w')
    ∧ (∀ req w r w', Proc.Runs (Answering ans) (plategaCallback cfg req) w r w' →
      ((w'.db.users ≠ w.db.users ∨ w'.db.creditEntries ≠ w.db.creditEntries
          ∨ w'.db.referralRewards ≠ w.db.referralRewards ∨ w'.db.configs ≠ w.db.configs
          ∨ w'.node ≠ w.node) →
        ∃ txn p, req.txn? cfg = some txn ∧ OrderOf w.db txn p ∧ ConfirmedBy cfg ans txn p)
      ∧ ∀ n, w'.db.payments.find n ≠ w.db.payments.find n →
        ∃ txn p, req.txn? cfg = some txn ∧ OrderOf w.db txn p ∧ p.id = n
          ∧ (ConfirmedBy cfg ans txn p
            ∨ (ReportedBy ans txn "CHARGEBACKED"
                ∧ w'.db.payments.find n = some { p with status := "chargebacked" })
            ∨ (ReportedBy ans txn "CANCELED"
                ∧ w'.db.payments.find n = some { p with status := "canceled" })))
    ∧ ∀ req, (req.secret ≠ some cfg.plategaSecret ∨ cfg.plategaSecret = "") →
      ∀ J w r w', Proc.Runs J (plategaCallback cfg req) w r w' → w' = w := by
  refine ⟨?_, ?_, ?_⟩
  · intro req₁ req₂ body₁ body₂ hs₁ hs₂ hb₁ hb₂ hid J w r w'
    rw [plategaCallback_congr cfg hs₁ hs₂ hb₁ hb₂ hid]
  · intro req w r w' hrun
    rcases runs_plategaCallback hrun with rfl | ⟨-, txn, htxn, hnudge⟩
    · exact ⟨fun h => by simp at h, fun n h => absurd rfl h⟩
    · refine ⟨fun hch => ?_, fun n hn => ?_⟩
      · obtain ⟨p, hp⟩ := effect_of_callback hnudge hch
        exact ⟨txn, p, htxn, hp⟩
      · obtain ⟨p, hp⟩ := payment_change_of_callback hnudge hn
        exact ⟨txn, p, htxn, hp⟩
  · intro req hsecret J w r w' hrun
    rcases runs_plategaCallback hrun with h | ⟨hok, -⟩
    · exact h
    · obtain ⟨h1, h2⟩ := secret_of_matches hok
      rcases hsecret with h | h
      · exact absurd h1 h
      · exact absurd h h2

/-- A body that claims a confirmation for the order of `oneOrder`. -/
def forgedBody : CallbackRequest :=
  ⟨some "s", some (.obj [("status", .str "CONFIRMED"), ("id", .str "t-1"), ("amount", .int 350)])⟩

/-- A forged confirmation has the outcomes of the bare id. -/
theorem forged_body_same_outcomes :
    ∀ r w', Proc.Runs anyInput (plategaCallback withSecret nudgeOrder) oneOrder r w'
      ↔ Proc.Runs anyInput (plategaCallback withSecret forgedBody) oneOrder r w' := by
  intro r w'
  have hnudge : secretMatches withSecret nudgeOrder.secret = .ok true := by decide
  have hforged : secretMatches withSecret forgedBody.secret = .ok true := by decide
  exact (callback_body_proves_nothing withSecret fun _ => none).1 nudgeOrder forgedBody _ _
    hnudge hforged rfl rfl (by rfl) anyInput oneOrder r w'

end VpnPortal
