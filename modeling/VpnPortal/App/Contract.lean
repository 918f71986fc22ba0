/-
What the operations of the session do to the selection and to the rest of the
phone, whatever the portal answers.

`Does I p s Q`: from `s` every state that the code `p` passes through, its last
one included, satisfies `I`, and its end satisfies `Q`. The rules below follow
the text of a program; `does_authorized` is the one for the renewal of the token
around a call.

* `Does` and its rules; `Does.runs`, `Does.reaches`: every end of the code satisfies `Q`,
  every state on the way `I`;
* `Quiet`: the selection, the tunnel and the screens are left alone;
* `does_authorized`: what a call does from every phone with the same selection, and
  leaves alone when it is refused, the operation does;
* `Bears`: what `I` has to allow for, and one lemma for each operation, with what it leaves:
  `does_devices`, `does_deleteDevice`, `does_renameDevice`, `does_select`, …
-/
import VpnPortal.App.Session
import VpnPortal.Sessions.Guarded

namespace VpnPortal.App

open Sessions Sessions.Proc

/-! ### Rules -/

/-- Every state on the way satisfies `I`, the end satisfies `Q`. -/
def Does {α : Type} (I : Phone → Prop) (p : Code α) (s : Phone) (Q : α → Phone → Prop) : Prop :=
  Alone (fun _ _ => True) (fun _ v => I v) (fun r t => ∀ a, r = .ok a → Q a t) p s

section Rules

variable {α β : Type} {I : Phone → Prop} {s : Phone} {Q : α → Phone → Prop} {Q' : β → Phone → Prop}

lemma Does.ret {a : α} (h : Q a s) : Does I (.ret a : Code α) s Q := by
  rintro b ⟨⟩
  exact h

lemma Does.bind {p : Code α} {f : α → Code β} (hp : Does I p s Q)
    (hf : ∀ a t, Q a t → Does I (f a) t Q') : Does I (p >>= f) s Q' :=
  Alone.bind hp (fun a t h => hf a t (h a rfl)) fun e => nomatch e

lemma Does.ite {c : Prop} [Decidable c] {p q : Code α} (hp : c → Does I p s Q)
    (hq : ¬ c → Does I q s Q) : Does I (if c then p else q) s Q := by
  split_ifs with h
  · exact hp h
  · exact hq h

lemma Does.mono {p : Code α} {R : α → Phone → Prop} (hp : Does I p s Q)
    (h : ∀ a t, Q a t → R a t) : Does I p s R :=
  Alone.mono hp (fun _ _ h => h) fun _ t hr a ha => h a t (hr a ha)

lemma Does.map {p : Code α} {f : α → β} (hp : Does I p s fun a t => Q' (f a) t) :
    Does I (f <$> p) s Q' :=
  hp.bind fun _ _ h => Does.ret h

/-- The states on the way satisfy less as well. -/
lemma Does.weaken {p : Code α} {I' : Phone → Prop} (hp : Does I p s Q) (h : ∀ v, I v → I' v) :
    Does I' p s Q :=
  Alone.mono hp (fun _ v hv => h v hv) fun _ _ hr => hr

/-- The last state is one of those on the way. -/
lemma Does.along {p : Code α} (hp : Does I p s Q) (hs : I s) :
    Does I p s fun a t => Q a t ∧ I t := by
  induction p generalizing s with
  | ret a => exact Does.ret ⟨hp a rfl, hs⟩
  | raise e => exact nomatch e
  | step act next ih => exact fun i hi => ⟨(hp i hi).1, ih s i (hp i hi).2 (hp i hi).1⟩

lemma Does.look {g : Phone → α} {f : α → Code β} (hI : I s) (hf : Does I (f (g s)) s Q') :
    Does I (look g >>= f) s Q' :=
  Alone.look hI hf

lemma Does.ask {g : Outside → α} {f : α → Code β} (hI : I s) (hf : ∀ i, Does I (f (g i)) s Q') :
    Does I (ask g >>= f) s Q' :=
  Alone.ask hI fun i _ => hf i

lemma Does.change {g : Phone → Phone} {f : Unit → Code β} (hI : I (g s))
    (hf : Does I (f ()) (g s) Q') : Does I (change g >>= f) s Q' :=
  Alone.change hI hf

lemma Does.change_last {g : Phone → Phone} {Q : Unit → Phone → Prop} (hI : I (g s))
    (hQ : Q () (g s)) : Does I (Proc.change g) s Q :=
  fun _ _ => ⟨hI, Does.ret hQ⟩

lemma Does.get {k : Key} {f : Option String → Code β} (hI : I s)
    (hf : Does I (f (s.secrets k)) s Q') : Does I (get k >>= f) s Q' :=
  Alone.look hI hf

lemma Does.put {k : Key} {v : String} {f : Unit → Code β} (hI : I (s.put k v))
    (hf : Does I (f ()) (s.put k v) Q') : Does I (put k v >>= f) s Q' :=
  Does.change hI hf

lemma Does.remove {k : Key} {f : Unit → Code β} (hI : I (s.remove k))
    (hf : Does I (f ()) (s.remove k) Q') : Does I (remove k >>= f) s Q' :=
  Does.change hI hf

variable (D : Decoders)

/-- A request: the answer is anything, and goes to the log. -/
lemma Does.call {T : Type} {e : Endpoint} {token : Option String}
    {parse : String → Except (Option String) T} {Q : ApiResult T → Phone → Prop}
    (hI : ∀ a, I (s.sent e token a)) (hQ : ∀ a, Q (D.read parse a) (s.sent e token a)) :
    Does I (call D e token parse) s Q :=
  fun i _ => ⟨hI i.answer, Does.ret (hQ i.answer)⟩

/-- The end of a whole run. -/
lemma Does.runs {p : Code α} (hp : Does I p s Q) {a : α} {t : Phone}
    (h : Runs (fun _ _ => True) p s (.ok a) t) : Q a t :=
  (Alone.runs hp h).2 a rfl

/-- Every point of a run, the first one apart. -/
lemma Does.reaches {p q : Code α} {t : Phone} (hp : Does I p s Q) (hs : I s)
    (h : Reaches p s q t) : I t ∧ Does I q t Q := by
  induction h with
  | refl => exact ⟨hs, hp⟩
  | step i _ ih => exact ⟨(ih.2 i trivial).1, (ih.2 i trivial).2⟩

end Rules

/-! ### Reading the selection -/

section Reading

variable {I : Phone → Prop} {s : Phone}

lemma Phone.selected_eq_some {sel : Selected} :
    s.selected = some sel ↔ s.secrets .deviceId = some sel.id
      ∧ s.secrets .deviceName = some sel.name ∧ ∃ text, s.secrets .conf = some text := by
  unfold Phone.selected
  split
  · next id name text hid hname hconf =>
      rw [hid, hname, hconf]
      constructor
      · rintro ⟨⟩
        exact ⟨rfl, rfl, text, rfl⟩
      · rintro ⟨h1, h2, -⟩
        rw [Option.some.inj h1, Option.some.inj h2]
  · next hnot =>
      constructor
      · nofun
      · rintro ⟨hid, hname, text, hconf⟩
        exact absurd hconf (hnot _ _ _ hid hname)

lemma Phone.storedConfig_of_selected (h : s.selected ≠ none) :
    s.storedConfig = s.secrets .conf := by
  rw [Phone.storedConfig, if_pos (Option.isSome_iff_ne_none.mpr h)]

lemma does_selected (hI : I s) :
    Does I Session.selected s fun r t => r = s.selected ∧ t = s := by
  unfold Phone.selected
  refine Does.get hI ?_
  cases s.secrets .deviceId with
  | none => exact Does.ret ⟨rfl, rfl⟩
  | some id =>
      refine Does.get hI ?_
      cases s.secrets .deviceName with
      | none => exact Does.ret ⟨rfl, rfl⟩
      | some name =>
          refine Does.get hI (Does.ite (fun h => ?_) fun h => ?_)
          · rw [h]
            exact Does.ret ⟨rfl, rfl⟩
          · obtain ⟨text, htext⟩ := Option.ne_none_iff_exists'.mp h
            rw [htext]
            exact Does.ret ⟨rfl, rfl⟩

lemma does_storedConfig (hI : I s) :
    Does I Session.storedConfig s fun r t => r = s.storedConfig ∧ t = s := by
  refine (does_selected hI).bind ?_
  rintro r t ⟨rfl, rfl⟩
  unfold Phone.storedConfig
  refine Does.ite (fun h => ?_) fun h => ?_
  · rw [if_pos h]
    exact fun _ _ => ⟨hI, Does.ret ⟨rfl, rfl⟩⟩
  · rw [if_neg h]
    exact Does.ret ⟨rfl, rfl⟩

end Reading

/-! ### Steps that leave the selection alone -/

/-- The device id, its name and its config. -/
def Key.OfDevice : Key → Prop
  | .token | .refresh => False
  | .conf | .deviceId | .deviceName => True

/-- Only the tokens have changed, and the log has grown. -/
structure Quiet (s t : Phone) : Prop where
  device : ∀ k, k.OfDevice → t.secrets k = s.secrets k
  tunnel : t.tunnel = s.tunnel
  ui : t.ui = s.ui
  log : s.log <+: t.log

namespace Quiet

variable {s t u : Phone}

@[refl] lemma refl (s : Phone) : Quiet s s := ⟨fun _ _ => rfl, rfl, rfl, List.prefix_rfl⟩

lemma trans (h : Quiet s t) (h' : Quiet t u) : Quiet s u :=
  ⟨fun k hk => (h'.device k hk).trans (h.device k hk), h'.tunnel.trans h.tunnel,
    h'.ui.trans h.ui, h.log.trans h'.log⟩

lemma sent (h : Quiet s t) (e : Endpoint) (token : Option String) (a : Answer) :
    Quiet s (t.sent e token a) :=
  h.trans ⟨fun _ _ => rfl, rfl, rfl, List.prefix_append _ _⟩

lemma put (h : Quiet s t) {k : Key} (hk : ¬ k.OfDevice) (v : String) : Quiet s (t.put k v) := by
  refine h.trans ⟨fun l hl => ?_, rfl, rfl, List.prefix_rfl⟩
  have hne : l ≠ k := fun heq => hk (heq ▸ hl)
  simp [Phone.put, hne]

lemma remove (h : Quiet s t) {k : Key} (hk : ¬ k.OfDevice) : Quiet s (t.remove k) := by
  refine h.trans ⟨fun l hl => ?_, rfl, rfl, List.prefix_rfl⟩
  have hne : l ≠ k := fun heq => hk (heq ▸ hl)
  simp [Phone.remove, hne]

lemma selected (h : Quiet s t) : t.selected = s.selected := by
  have hid : t.secrets .deviceId = s.secrets .deviceId := h.device _ trivial
  have hname : t.secrets .deviceName = s.secrets .deviceName := h.device _ trivial
  have hconf : t.secrets .conf = s.secrets .conf := h.device _ trivial
  simp only [Phone.selected, hid, hname, hconf]

lemma storedConfig (h : Quiet s t) : t.storedConfig = s.storedConfig := by
  have hconf : t.secrets .conf = s.secrets .conf := h.device _ trivial
  simp only [Phone.storedConfig, h.selected, hconf]

end Quiet

/-! ### The renewal -/

section Authorized

variable (D : Decoders) {I : Phone → Prop} {s : Phone}

/-- The client's refresh is one request. -/
lemma Does.refresh {r : String} {Q : ApiResult TokenResponse → Phone → Prop}
    (hI : ∀ a, I (s.sent (.refresh r) none a))
    (hQ : ∀ a, Q (forClient .unauthorized (D.read D.tokenResponse a)) (s.sent (.refresh r) none a)) :
    Does I (refresh D r) s Q :=
  (Does.call D hI (Q := fun x t => Q (forClient .unauthorized x) t) hQ).bind fun _ _ h => Does.ret h

/-- A renewal touches the tokens only. -/
lemma does_renew {u : Phone} (hI : ∀ v, Quiet s v → I v) (hu : Quiet s u) :
    Does I (Session.renew D) u fun _ t => Quiet s t := by
  refine Does.get (hI u hu) ?_
  cases u.secrets .refresh with
  | none => exact Does.ret hu
  | some r =>
      refine (Does.refresh D (Q := fun _ t => Quiet s t) (fun a => hI _ (hu.sent _ _ a))
        fun a => hu.sent _ _ a).bind fun x t ht => ?_
      cases x with
      | ok value =>
          have hput : Quiet s (t.put .token value.accessToken) := ht.put (by simp [Key.OfDevice]) _
          exact Does.put (hI _ hput) (Does.ret hput)
      | failed e =>
          refine Does.ite (fun _ => ?_) fun _ => Does.ret ht
          have hrem : Quiet s (t.remove .refresh) := ht.remove (by simp [Key.OfDevice])
          exact Does.remove (hI _ hrem) (Does.ret hrem)

variable {T : Type} {act : String → Code (ApiResult T)} {Q : ApiResult T → Phone → Prop}

lemma does_again {u : Phone} (hI : ∀ v, Quiet s v → I v) (hu : Quiet s u)
    (hact : ∀ k v, Quiet s v →
      Does I (act k) v fun r t => Q r t ∧ (r = .failed .unauthorized → Quiet s t))
    (hfail : ∀ e t, Quiet s t → Q (.failed e) t) : Does I (Session.again D act) u Q := by
  refine (does_renew D hI hu).bind fun x t ht => ?_
  cases x with
  | failed e => exact Does.ret (hfail e t ht)
  | ok token =>
      refine (hact token t ht).bind fun r v hr => ?_
      refine Does.ite (fun h => ?_) fun _ => Does.ret hr.1
      obtain rfl := ApiResult.isUnauthorized_iff.mp h
      have hrem : Quiet s (v.remove .token) := (hr.2 rfl).remove (by simp [Key.OfDevice])
      exact Does.remove (hI _ hrem) (Does.ret (hfail _ _ hrem))

/-- **The rule for an authorized call.** What the call does from every phone with
the same selection, and leaves alone when it is refused, the operation does. -/
lemma does_authorized (hI : ∀ v, Quiet s v → I v)
    (hact : ∀ k v, Quiet s v →
      Does I (act k) v fun r t => Q r t ∧ (r = .failed .unauthorized → Quiet s t))
    (hfail : ∀ e t, Quiet s t → Q (.failed e) t) : Does I (Session.authorized D act) s Q := by
  refine Does.get (hI s (.refl s)) ?_
  cases s.secrets .token with
  | none => exact does_again D hI (.refl s) hact hfail
  | some token =>
      refine (hact token s (.refl s)).bind fun r v hr => ?_
      refine Does.ite (fun h => ?_) fun _ => Does.ret hr.1
      obtain rfl := ApiResult.isUnauthorized_iff.mp h
      have hrem : Quiet s (v.remove .token) := (hr.2 rfl).remove (by simp [Key.OfDevice])
      exact Does.remove (hI _ hrem) (does_again D hI hrem hact hfail)

/-- With no token at all nothing is asked, and the operation fails. -/
lemma does_without_tokens (hI : I s) (htoken : s.secrets .token = none)
    (hrefresh : s.secrets .refresh = none) :
    Does I (Session.authorized D act) s fun r t => r = .failed .unauthorized ∧ t = s := by
  refine Does.get hI ?_
  rw [htoken]
  have hrenew : Does I (Session.renew D) s fun r t => r = .failed .unauthorized ∧ t = s := by
    refine Does.get hI ?_
    rw [hrefresh]
    exact Does.ret ⟨rfl, rfl⟩
  refine hrenew.bind ?_
  rintro r t ⟨rfl, rfl⟩
  exact Does.ret ⟨rfl, rfl⟩

/-- A call that only asks. -/
lemma does_asking (hI : ∀ v, Quiet s v → I v)
    (hact : ∀ k v, Quiet s v → Does I (act k) v fun _ t => Quiet s t) :
    Does I (Session.authorized D act) s fun _ t => Quiet s t :=
  does_authorized D hI (fun k v hv => (hact k v hv).mono fun _ _ ht => ⟨ht, fun _ => ht⟩)
    fun _ _ ht => ht

lemma does_call {e : Endpoint} {token : Option String} {parse : String → Except (Option String) T}
    {v : Phone} (hI : ∀ v, Quiet s v → I v) (hv : Quiet s v) :
    Does I (call D e token parse) v fun _ t => Quiet s t :=
  Does.call D (fun a => hI _ (hv.sent _ _ a)) fun a => hv.sent _ _ a

end Authorized

/-! ### The operations -/

/-- The log holds an answer that brought the config `text` of the device `id`. -/
def Brings (D : Decoders) (id text : String) : Event → Prop
  | .sent (.config id') _ a => id' = id ∧ D.read .ok a = .ok text
  | _ => False

instance (D : Decoders) (id text : String) : DecidablePred (Brings D id text)
  | .sent (.config id') _ a =>
      inferInstanceAs (Decidable (id' = id ∧ D.read .ok a = ApiResult.ok text))
  | .sent (.login _ _) _ _ | .sent (.register _ _ _) _ _ | .sent (.refresh _) _ _
  | .sent (.logout _) _ _ | .sent .profile _ _ | .sent .devices _ _ | .sent (.addDevice _) _ _
  | .sent (.renameDevice _ _) _ _ | .sent (.deleteDevice _) _ _ | .sent .startTrial _ _
  | .sent .resendVerification _ _ | .sent .trialOffer _ _ | .sent .latestRelease _ _
  | .tunnelUp _ | .tunnelDown | .wipe => inferInstanceAs (Decidable False)

/-- The config `text` was downloaded for the device `id`. -/
def Fetched (D : Decoders) (log : List Event) (id text : String) : Prop :=
  ∃ x ∈ log, Brings D id text x

lemma Fetched.mono {D : Decoders} {log log' : List Event} {id text : String}
    (h : Fetched D log id text) (hlog : log <+: log') : Fetched D log' id text := by
  obtain ⟨x, hx, hb⟩ := h
  exact ⟨x, hlog.subset hx, hb⟩

/-- `forgetSelection`, all of it. -/
def Phone.forget (s : Phone) : Phone := ((s.remove .deviceId).remove .deviceName).remove .conf

/-- The three writes of `select`. -/
def Phone.take (d : Device) (text : String) (s : Phone) : Phone :=
  ((s.put .conf text).put .deviceName d.name).put .deviceId d.id

/-- `I` holds on the way from `s` through the steps of `forgetSelection` and of a
rename. -/
structure Bears (I : Phone → Prop) (s : Phone) : Prop where
  quiet : ∀ v, Quiet s v → I v
  forget : ∀ v, Quiet s v → I (v.remove .deviceId) ∧ I ((v.remove .deviceId).remove .deviceName)
    ∧ I v.forget
  rename : ∀ v id name, Quiet s v → v.secrets .deviceId = some id → I (v.put .deviceName name)

section Operations

variable (D : Decoders) {I : Phone → Prop} {s : Phone}

lemma does_forgetSelection {u : Phone} (hI : Bears I s) (hu : Quiet s u) :
    Does I Session.forgetSelection u fun _ t => t = u.forget := by
  obtain ⟨h1, h2, h3⟩ := hI.forget u hu
  exact Does.remove h1 (Does.remove h2 (Does.change_last h3 rfl))

/-- A device list on the phone: nothing, forgotten, or under a new name. -/
def Followed (u t : Phone) : Prop :=
  t = u ∨ t = u.forget ∨ ∃ id name, u.secrets .deviceId = some id ∧ t = u.put .deviceName name

lemma does_follow {u : Phone} (hI : Bears I s) (hu : Quiet s u) (list : DeviceList) :
    Does I (Session.follow list) u fun _ t => Followed u t := by
  refine Does.get (hI.quiet u hu) ?_
  cases hid : u.secrets .deviceId with
  | none => exact Does.ret (Or.inl rfl)
  | some id =>
      dsimp only
      cases list.configs.find? fun d => d.id == id with
      | none => exact (does_forgetSelection hI hu).mono fun _ _ ht => Or.inr (Or.inl ht)
      | some current =>
          refine Does.get (hI.quiet u hu) ?_
          refine Does.ite (fun _ => ?_) fun _ => Does.ret (Or.inl rfl)
          exact Does.change_last (hI.rename u id _ hu hid) (Or.inr (Or.inr ⟨id, _, hid, rfl⟩))

lemma does_devices (hI : Bears I s) :
    Does I (Session.devices D) s fun r t =>
      ∃ u, Quiet s u ∧ ((∃ e, r = .failed e ∧ t = u) ∨ ∃ l, r = .ok l ∧ Followed u t) := by
  refine (does_asking D hI.quiet fun k v hv => does_call D hI.quiet hv).bind fun r u hu => ?_
  cases r with
  | ok list =>
      refine (does_follow hI hu list).bind fun _ t ht => ?_
      exact Does.ret ⟨u, hu, Or.inr ⟨list, rfl, ht⟩⟩
  | failed e => exact Does.ret ⟨u, hu, Or.inl ⟨e, rfl, rfl⟩⟩

/-- A device removed from the account: forgotten if it is this phone's. -/
lemma does_deleteDevice (hI : Bears I s) (deviceId : String) :
    Does I (Session.deleteDevice D deviceId) s fun r t =>
      ∃ u, Quiet s u ∧ ((t = u ∧ (r = .ok () → s.secrets .deviceId ≠ some deviceId))
        ∨ (t = u.forget ∧ r = .ok () ∧ s.secrets .deviceId = some deviceId)) := by
  refine does_authorized D hI.quiet (fun k v hv => ?_)
    fun e t ht => ⟨t, ht, Or.inl ⟨rfl, fun h => by cases h⟩⟩
  have hgone : ∀ w, Quiet s w → Does I (Session.deleteCall.gone deviceId) w fun r t =>
      (∃ u, Quiet s u ∧ ((t = u ∧ (r = .ok () → s.secrets .deviceId ≠ some deviceId))
        ∨ (t = u.forget ∧ r = .ok () ∧ s.secrets .deviceId = some deviceId)))
      ∧ (r = .failed .unauthorized → Quiet s t) := by
    intro w hw
    have hid : w.secrets .deviceId = s.secrets .deviceId := hw.device _ trivial
    refine Does.get (hI.quiet w hw) ?_
    refine Does.ite (fun h => ?_) fun h => ?_
    · refine (does_forgetSelection hI hw).bind fun _ t ht => ?_
      exact Does.ret ⟨⟨w, hw, Or.inr ⟨ht, rfl, hid ▸ h⟩⟩, fun h => by cases h⟩
    · exact Does.ret ⟨⟨w, hw, Or.inl ⟨rfl, fun _ h' => h (hid.trans h')⟩⟩, fun h => by cases h⟩
  have hsent : Does I (deleteDevice D k deviceId) v fun _ t => Quiet s t := by
    unfold deleteDevice
    exact Does.ite (fun _ => Does.ret hv) fun _ => does_call D hI.quiet hv
  refine hsent.bind fun r w hw => ?_
  cases r with
  | ok value => exact hgone w hw
  | failed e =>
      refine Does.ite (fun _ => hgone w hw) fun _ => ?_
      exact Does.ret ⟨⟨w, hw, Or.inl ⟨rfl, fun h => by cases h⟩⟩, fun _ => hw⟩

/-- A device renamed on the account: its name follows if it is this phone's. -/
lemma does_renameDevice (hI : Bears I s) (deviceId name : String) :
    Does I (Session.renameDevice D deviceId name) s fun r t =>
      ∃ u, Quiet s u ∧ (t = u ∨ ∃ d, r = .ok d ∧ t = u.put .deviceName d.name) := by
  refine does_authorized D hI.quiet (fun k v hv => ?_) fun e t ht => ⟨t, ht, Or.inl rfl⟩
  have hsent : Does I (renameDevice D k deviceId name) v fun _ t => Quiet s t := by
    unfold renameDevice
    refine Does.ite (fun _ => Does.ret hv) fun _ => ?_
    exact Does.ite (fun _ => Does.ret hv) fun _ => does_call D hI.quiet hv
  refine hsent.bind fun r w hw => ?_
  cases r with
  | failed e => exact Does.ret ⟨⟨w, hw, Or.inl rfl⟩, fun _ => hw⟩
  | ok renamed =>
      refine Does.get (hI.quiet w hw) ?_
      refine Does.ite (fun h => ?_) fun _ => Does.ret ⟨⟨w, hw, Or.inl rfl⟩, fun _ => hw⟩
      refine Does.put (hI.rename w deviceId _ hw h) (Does.ret ?_)
      exact ⟨⟨w, hw, Or.inr ⟨renamed, rfl, rfl⟩⟩, fun h => by cases h⟩

/-- `I` holds through the writes of `select`. -/
def BearsTaking (I : Phone → Prop) (s : Phone) (d : Device) : Prop :=
  ∀ v text, Quiet s v → Fetched D v.log d.id text →
    I (v.put .conf text) ∧ I ((v.put .conf text).put .deviceName d.name) ∧ I (v.take d text)

/-- A device chosen: its config, its name and its id are stored, or nothing is. -/
lemma does_select (hI : ∀ v, Quiet s v → I v) {d : Device} (hd : BearsTaking D I s d) :
    Does I (Session.select D d) s fun r t =>
      ∃ u, Quiet s u ∧ ((∃ e, r = .failed e ∧ t = u)
        ∨ ∃ text, r = .ok () ∧ Fetched D u.log d.id text ∧ t = u.take d text) := by
  refine does_authorized D hI (fun k v hv => ?_) fun e t ht => ⟨t, ht, Or.inl ⟨e, rfl, rfl⟩⟩
  have hsent : Does I (config D k d.id) v fun r t =>
      Quiet s t ∧ ∀ text, r = .ok text → Fetched D t.log d.id text := by
    unfold config
    refine Does.ite (fun _ => Does.ret ⟨hv, fun _ h => by cases h⟩) fun _ => ?_
    refine Does.call D (fun a => hI _ (hv.sent _ _ a)) fun a => ⟨hv.sent _ _ a, fun text h => ?_⟩
    exact ⟨_, List.mem_append_right _ (List.mem_singleton_self _), rfl, h⟩
  refine hsent.bind fun r w hw => ?_
  cases r with
  | failed e => exact Does.ret ⟨⟨w, hw.1, Or.inl ⟨e, rfl, rfl⟩⟩, fun _ => hw.1⟩
  | ok text =>
      refine Does.ite (fun _ => ?_) fun _ => ?_
      · exact Does.ret ⟨⟨w, hw.1, Or.inl ⟨_, rfl, rfl⟩⟩, fun _ => hw.1⟩
      · obtain ⟨h1, h2, h3⟩ := hd w text hw.1 (hw.2 text rfl)
        refine Does.put h1 (Does.put h2 (Does.put h3 (Does.ret ?_)))
        exact ⟨⟨w, hw.1, Or.inr ⟨text, rfl, hw.2 text rfl, rfl⟩⟩, fun h => by cases h⟩

lemma does_signIn (hI : ∀ v, Quiet s v → I v) {u : Phone} (hu : Quiet s u)
    (username password : String) :
    Does I (Session.signIn D username password) u fun _ t => Quiet s t := by
  have hlogin : Does I (login D (trim username) password) u fun _ t => Quiet s t :=
    (does_call D hI hu).bind fun _ _ ht => Does.ret ht
  refine hlogin.bind fun r v hv => ?_
  cases r with
  | failed e => exact Does.ret hv
  | ok value =>
      have htoken : Quiet s (v.put .token value.accessToken) := hv.put (by simp [Key.OfDevice]) _
      refine Does.put (hI _ htoken) ?_
      cases value.refreshToken with
      | some r =>
          have hput := htoken.put (k := .refresh) (by simp [Key.OfDevice]) r
          exact Does.put (hI _ hput) (Does.ret hput)
      | none =>
          have hrem := htoken.remove (k := .refresh) (by simp [Key.OfDevice])
          exact Does.remove (hI _ hrem) (Does.ret hrem)

lemma does_register (hI : ∀ v, Quiet s v → I v) (username email password : String) :
    Does I (Session.register D username email password) s fun _ t => Quiet s t := by
  refine (does_call (s := s) D hI (.refl s)).bind fun r v hv => ?_
  cases r with
  | failed e => exact Does.ret hv
  | ok _ => exact does_signIn D hI hv username password

lemma does_addDevice (hI : ∀ v, Quiet s v → I v) (name : String) :
    Does I (Session.addDevice D name) s fun _ t => Quiet s t := by
  refine does_asking D hI fun k v hv => ?_
  unfold addDevice
  exact Does.ite (fun _ => Does.ret hv) fun _ => does_call D hI hv

/-- Sign-out tells the portal if it can, and clears the store. -/
lemma does_signOut (hI : ∀ v, Quiet s v → I v) (hclear : ∀ v, Quiet s v → I v.clear) :
    Does I (Session.signOut D) s fun _ t =>
      ∃ u, t = u.clear ∧ (u = s ∨ ∃ r a, u = s.sent (.logout r) none a) := by
  refine Does.get (hI s (.refl s)) ?_
  cases s.secrets .refresh with
  | none => exact Does.change_last (hclear s (.refl s)) ⟨s, rfl, Or.inl rfl⟩
  | some r =>
      refine (Does.call (Q := fun _ t => ∃ a, t = s.sent (.logout r) none a) D
        (fun a => hI _ ((Quiet.refl s).sent _ _ a)) fun a => ⟨a, rfl⟩).bind ?_
      rintro x v ⟨a, rfl⟩
      exact Does.change_last (hclear _ ((Quiet.refl s).sent _ _ a)) ⟨_, rfl, Or.inr ⟨r, a, rfl⟩⟩

end Operations

end VpnPortal.App
