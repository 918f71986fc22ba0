/-
The phone shows, stores and runs the same device.

Three things name a device: the value on the screens, the store, and the config
the tunnel runs on. Each operation of the account moves them one by one, and a
failure in the middle may read the whole account again. Between operations they
agree, unless the session is over; then the model is about to be thrown away
(`ui/App.kt` makes a new one for each signed-in session), and the operations
that select a new device no longer bring the screens up to date.

* `Follows`, `Good`, `Wiped`, `InStep`: the three agree;
* `does_load`, `does_failed` and one lemma for each operation: it ends with the three in
  agreement, or with the session over;
* `Op.MayBegin`: an addition or a trial begins before the session is over;
* `phone_in_step`: along every use of the account the screens show the stored device or
  the session is over, the tunnel runs the stored config, and it is down before a device
  is deleted or the secrets are cleared;
* `tunnel_outlives_device`: what an addition after the end of the session leads to.
-/
import VpnPortal.App.Account
import VpnPortal.App.Contract

namespace VpnPortal.App

open Sessions Sessions.Proc

/-! ### The three agree -/

/-- A tunnel that is up runs the stored config. -/
def Follows (s : Phone) : Prop := ∀ c, s.tunnel = some c → s.storedConfig = some c

/-- The screens show the stored device and the tunnel runs on it. -/
structure Good (s : Phone) : Prop where
  shown : s.ui.selected = s.selected
  follows : Follows s

/-- Signed out, and nothing is stored. -/
structure Wiped (s : Phone) : Prop where
  out : s.ui.signedOut ≠ none
  nothing : ∀ k, s.secrets k = none

/-- The tunnel follows the store, and so do the screens until the sign-out. -/
def InStep (s : Phone) : Prop := Follows s ∧ (s.ui.selected = s.selected ∨ Wiped s)

section Agree

variable {s t u : Phone}

lemma Follows.of_down (h : s.tunnel = none) : Follows s := by
  intro c hc
  rw [h] at hc
  cases hc

/-- The stored config is the same and the tunnel is, or it is down. -/
lemma Follows.of_same (h : Follows s) (ht : t.tunnel = s.tunnel ∨ t.tunnel = none)
    (hc : t.storedConfig = s.storedConfig) : Follows t := by
  rcases ht with ht | ht
  · intro c htc
    rw [hc]
    exact h c (ht.symm.trans htc)
  · exact .of_down ht

lemma Follows.quiet (h : Follows s) (hq : Quiet s t) : Follows t :=
  h.of_same (Or.inl hq.tunnel) hq.storedConfig

/-- Without a selection the tunnel is down. -/
lemma Follows.down (h : Follows s) (hs : s.selected = none) : s.tunnel = none := by
  cases ht : s.tunnel with
  | none => rfl
  | some c =>
      have hc := h c ht
      simp [Phone.storedConfig, hs] at hc

lemma Good.quiet (h : Good s) (hq : Quiet s t) : Good t :=
  ⟨by rw [hq.ui, h.shown, hq.selected], h.follows.quiet hq⟩

lemma Good.shows {f : AccountUi → AccountUi} (h : Good s) (hf : (f s.ui).selected = s.ui.selected) :
    Good (s.shows f) :=
  ⟨hf.trans h.shown, h.follows⟩

lemma Good.inStep (h : Good s) : InStep s := ⟨h.follows, Or.inl h.shown⟩

lemma InStep.shows (h : InStep s) {f : AccountUi → AccountUi}
    (hsel : (f s.ui).selected = s.ui.selected)
    (hout : s.ui.signedOut ≠ none → (f s.ui).signedOut ≠ none) : InStep (s.shows f) :=
  ⟨h.1, h.2.imp hsel.trans fun hw => ⟨hout hw.out, hw.nothing⟩⟩

lemma InStep.good (h : InStep s) (hout : s.ui.signedOut = none) : Good s :=
  ⟨h.2.resolve_right fun hw => hw.out hout, h.1⟩

lemma selected_forget (s : Phone) : s.forget.selected = none := by
  simp [Phone.selected, Phone.forget, Phone.remove]

/-- A new name for the stored device leaves its config alone. -/
lemma Follows.renamed (h : Follows s) (name : String) : Follows (s.put .deviceName name) := by
  cases hsel : s.selected with
  | none => exact .of_down (h.down hsel)
  | some sel =>
      obtain ⟨hid, -, hconf⟩ := Phone.selected_eq_some.mp hsel
      have hsel' : (s.put .deviceName name).selected = some ⟨sel.id, name⟩ :=
        Phone.selected_eq_some.mpr (by simpa [Phone.put] using ⟨hid, hconf⟩)
      refine h.of_same (Or.inl rfl) ?_
      rw [Phone.storedConfig_of_selected (by simp [hsel']),
        Phone.storedConfig_of_selected (by simp [hsel])]
      simp [Phone.put]

/-- A device list, as long as it did not take away what the tunnel runs on. -/
lemma Follows.followed (h : Follows s) (ht : Followed s t)
    (hkept : s.selected ≠ none → t.selected ≠ none) : Follows t := by
  rcases ht with rfl | rfl | ⟨id, name, -, rfl⟩
  · exact h
  · have hnone : s.selected = none := by
      by_contra hne
      exact hkept hne (selected_forget s)
    exact .of_down (h.down hnone)
  · exact h.renamed name

lemma selected_take (s : Phone) (d : Device) (text : String) :
    (s.take d text).storedConfig = some text := by
  simp [Phone.storedConfig, Phone.selected, Phone.take, Phone.put]

end Agree

/-! ### The pieces of an operation -/

/-- A property that only a tunnel coming up can break. -/
def Downward (I : Phone → Prop) : Prop :=
  ∀ v v', I v → (v'.tunnel = v.tunnel ∨ v'.tunnel = none) → I v'

lemma downward_true : Downward fun _ => True := fun _ _ _ _ => trivial

lemma downward_down : Downward fun v => v.tunnel = none := by
  intro v v' h h'
  rcases h' with h' | h'
  · exact h'.trans h
  · exact h'

section Updates

variable {I : Phone → Prop} {s : Phone}

lemma does_update {f : AccountUi → AccountUi} {Q : Unit → Phone → Prop} (hI : Downward I) (hs : I s)
    (hQ : Q () (s.shows f)) : Does I (update f) s Q :=
  Does.change_last (hI s _ hs (Or.inl rfl)) hQ

/-- A change of the screens in front of the rest. -/
lemma Does.update {α : Type} {f : AccountUi → AccountUi} {p : Unit → Code α} {Q : α → Phone → Prop}
    (hI : Downward I) (hs : I s) (hp : I (s.shows f) → Does I (p ()) (s.shows f) Q) :
    Does I (App.update f >>= p) s Q :=
  Does.change (hI s _ hs (Or.inl rfl)) (hp (hI s _ hs (Or.inl rfl)))

end Updates

namespace Account

variable (D : Decoders) {I : Phone → Prop} {s : Phone}

section Pieces

lemma bears_of_downward (hI : Downward I) (hs : I s) : Bears I s where
  quiet v hv := hI s v hs (Or.inl hv.tunnel)
  forget _ hv := ⟨hI s _ hs (Or.inl hv.tunnel), hI s _ hs (Or.inl hv.tunnel),
    hI s _ hs (Or.inl hv.tunnel)⟩
  rename _ _ _ hv _ := hI s _ hs (Or.inl hv.tunnel)

lemma does_refreshSelected (hI : Downward I) (hs : I s) (hf : Follows s) :
    Does I refreshSelected s fun _ t => Good t := by
  refine (does_selected hs).bind ?_
  rintro r t ⟨rfl, rfl⟩
  exact does_update hI hs ⟨rfl, hf⟩

/-- A failure keeps the agreement, if reading the account again does. -/
lemma does_failedWith {reload : Option (Code Unit)} (hI : Downward I) (hs : I s) (h : Good s)
    (hreload : ∀ p ∈ reload, ∀ v, I v → Follows v → Does I p v fun _ t => Good t)
    (e : ApiError) (action : Action) : Does I (failedWith reload e action) s fun _ t => Good t := by
  refine Does.ite (fun _ => does_update hI hs (h.shows rfl)) fun _ => ?_
  refine Does.look hs (Does.update hI hs fun hs' => ?_)
  cases reload with
  | none => exact Does.ret (h.shows rfl)
  | some p =>
      refine Does.ite (fun _ => ?_) fun _ => Does.ret (h.shows rfl)
      refine Does.look hs' (((hreload p rfl _ hs' h.follows).along hs').bind fun _ t ht => ?_)
      exact does_update hI ht.2 (ht.1.shows rfl)

lemma does_askTrialOffer (hI : Downward I) (hs : I s) (h : Good s) (profile : Profile) :
    Does I (askTrialOffer D profile) s fun _ t => Good t := by
  refine Does.look hs (Does.ite (fun _ => Does.ret h) fun _ => ?_)
  refine Does.ite (fun _ => Does.ret h) fun _ => ?_
  have hquiet : ∀ v, Quiet s v → I v := (bears_of_downward hI hs).quiet
  refine (does_call (s := s) D hquiet (.refl s)).bind fun r t ht => ?_
  cases r with
  | failed e => exact Does.ret (h.quiet ht)
  | ok offer => exact does_update hI (hquiet t ht) ((h.quiet ht).shows rfl)

lemma does_loadDevices (hI : Downward I) (hs : I s) (h : Good s) :
    Does I (loadDevices D s.selected) s fun _ t => Good t := by
  refine ((does_devices D (bears_of_downward hI hs)).along hs).bind ?_
  rintro r t ⟨⟨u, hu, hr⟩, ht⟩
  rcases hr with ⟨e, rfl, rfl⟩ | ⟨list, rfl, hfollow⟩
  · refine Does.update hI ht fun ht' => ?_
    exact does_failedWith hI ht' ((h.quiet hu).shows rfl) (by simp) e _
  · refine (does_selected ht).bind ?_
    rintro now t ⟨rfl, rfl⟩
    refine Does.ite (fun _ => ?_) fun hkept => ?_
    · -- removed elsewhere: the tunnel comes down
      refine Does.change (hI _ _ ht (Or.inr rfl)) (Does.update hI (hI _ _ ht (Or.inr rfl)) fun ht' => ?_)
      exact does_update hI ht' ⟨rfl, .of_down rfl⟩
    · have hfollows : Follows t := by
        refine (h.quiet hu).follows.followed hfollow fun hsome hnone => hkept ⟨?_, hnone⟩
        rw [hu.selected] at hsome
        exact Option.isSome_iff_ne_none.mpr hsome
      exact does_update hI ht ⟨rfl, hfollows⟩

/-- **Reading the account** brings the screens up to date with the store, and
takes the tunnel down when the device is gone. -/
lemma does_load (hI : Downward I) (hs : I s) (h : Follows s) :
    Does I (load D) s fun _ t => Good t := by
  refine Does.update hI hs fun hs1 => ?_
  refine (does_selected hs1).bind ?_
  rintro had t ⟨rfl, rfl⟩
  refine Does.update hI hs1 fun hs2 => ?_
  have hgood : Good ((s.shows fun ui => { ui with error := none }).shows
      fun ui => { ui with selected := (s.shows fun ui => { ui with error := none }).selected }) :=
    ⟨rfl, h⟩
  have hquiet := (bears_of_downward hI hs2).quiet
  refine ((does_asking D hquiet fun k v hv => does_call D hquiet hv).along hs2).bind ?_
  rintro r t ⟨ht, hIt⟩
  cases r with
  | failed e => exact does_failedWith hI hIt (hgood.quiet ht) (by simp) e _
  | ok p =>
      refine Does.update hI hIt fun hs3 => Does.look hs3 ?_
      have hgood' : Good (t.shows fun ui => { ui with profile := some p }) :=
        (hgood.quiet ht).shows rfl
      refine Does.ask hs3 fun i => Does.ite (fun _ => ?_) fun _ => ?_
      · have hhad : (t.shows fun ui => { ui with profile := some p }).selected = s.selected :=
          ht.selected
        have hdo := does_loadDevices D hI hs3 hgood'
        rw [hhad] at hdo
        exact hdo
      · exact Does.update hI hs3 fun hs4 => does_askTrialOffer D hI hs4 (hgood'.shows rfl) p

lemma does_failed (hI : Downward I) (hs : I s) (h : Good s) (e : ApiError) (action : Action) :
    Does I (failed D e action) s fun _ t => Good t := by
  refine does_failedWith hI hs h ?_ e action
  rintro p ⟨⟩ v hv hfollows
  exact does_load D hI hv hfollows

/-- `work` around a block. -/
lemma does_work {α : Type} {block : Code α} {Q Q' : α → Phone → Prop} (hI : Downward I) (hs : I s)
    (hblock : I (s.shows fun ui => { ui with busy := true, error := none }) →
      Does I block (s.shows fun ui => { ui with busy := true, error := none }) Q)
    (hQ : ∀ a t, Q a t → Q' a (t.shows fun ui => { ui with busy := false })) :
    Does I (work block) s Q' := by
  refine Does.update hI hs fun hs' => ?_
  refine ((hblock hs').along hs').bind ?_
  rintro a t ⟨ha, ht⟩
  exact Does.update hI ht fun _ => Does.ret (hQ a t ha)

/-- A running tunnel is moved onto the config just stored. -/
lemma does_followSelection {text : String} (h : s.storedConfig = some text) :
    Does (fun _ => True) followSelection s fun _ t =>
      t.secrets = s.secrets ∧ t.ui = s.ui ∧ Follows t := by
  refine Does.look trivial (Does.ite (fun hdown => ?_) fun _ => ?_)
  · have hnone : s.tunnel = none := by simpa using hdown
    exact Does.ret ⟨rfl, rfl, .of_down hnone⟩
  · refine (does_storedConfig trivial).bind ?_
    rintro r t ⟨rfl, rfl⟩
    rw [h]
    refine Does.change_last trivial ⟨rfl, rfl, ?_⟩
    rintro c ⟨⟩
    exact h

end Pieces

/-! ### The operations -/

section Operations

lemma inStep_failed (hI : Downward I) (hs : I s) (h : InStep s) {e : ApiError}
    (he : s.ui.selected = s.selected ∨ e = .unauthorized) (action : Action) :
    Does I (failed D e action) s fun _ t => InStep t := by
  rcases he with hgood | rfl
  · exact (does_failed D hI hs ⟨hgood, h.1⟩ e action).mono fun _ _ ht => ht.inStep
  · unfold failed failedWith
    refine Does.ite (fun _ => ?_) fun hne => absurd rfl hne
    exact does_update hI hs (h.shows rfl fun _ => Option.some_ne_none _)

/-- In a wiped store an authorized operation fails at once. -/
lemma does_wiped {T : Type} {act : String → Code (ApiResult T)} (hs : I s) (hw : Wiped s) :
    Does I (Session.authorized D act) s fun r t => r = .failed .unauthorized ∧ t = s :=
  does_without_tokens D hs (hw.nothing _) (hw.nothing _)

lemma inStep_work {α : Type} {block : Code α} (hI : Downward I) (hs : I s) (h : InStep s)
    (hblock : ∀ v, I v → InStep v → v.selected = s.selected → v.tunnel = s.tunnel →
      Does I block v fun _ t => InStep t) :
    Does I (work block) s fun _ t => InStep t :=
  does_work hI hs (fun hs' => hblock _ hs' (h.shows rfl id) rfl rfl) fun _ _ ht => ht.shows rfl id

/-- Reading the account again, if asked to. -/
lemma inStep_load (hI : Downward I) (hs : I s) (h : InStep s) :
    Does I (load D) s fun _ t => InStep t :=
  (does_load D hI hs h.1).mono fun _ _ ht => ht.inStep

lemma inStep_use (h : InStep s) (d : Device) :
    Does (fun _ => True) (use D d) s fun _ t => InStep t := by
  refine inStep_work downward_true trivial h fun v _ hv _ _ => ?_
  rcases hv.2 with hshown | hw
  · have hgood : Good v := ⟨hshown, hv.1⟩
    refine (does_select D (fun _ _ => trivial) fun _ _ _ _ => ⟨trivial, trivial, trivial⟩).bind ?_
    rintro r t ⟨u, hu, ⟨e, rfl, rfl⟩ | ⟨text, rfl, -, rfl⟩⟩
    · exact inStep_failed D downward_true trivial (hgood.quiet hu).inStep (Or.inl (hgood.quiet hu).shown) _
    · refine Does.update downward_true trivial fun _ => ?_
      have hrefresh : Does (fun _ => True) refreshSelected
          ((u.take d text).shows fun ui => { ui with notice := none }) fun _ t =>
            t.ui.selected = t.selected ∧ t.storedConfig = some text := by
        refine (does_selected trivial).bind ?_
        rintro r t ⟨rfl, rfl⟩
        exact does_update downward_true trivial ⟨rfl, selected_take u d text⟩
      refine hrefresh.bind fun _ t ht => ?_
      refine (does_followSelection ht.2).mono ?_
      rintro _ t' ⟨hsecrets, hui, hfollows⟩
      refine ⟨hfollows, Or.inl ?_⟩
      rw [hui, ht.1]
      simp [Phone.selected, hsecrets]
  · refine (does_wiped D trivial hw).bind ?_
    rintro r t ⟨rfl, rfl⟩
    exact inStep_failed D downward_true trivial hv (Or.inr rfl) _

/-- The screens may lag behind, but only before the account is read again. -/
def Lagging (again : Bool) (s : Phone) : Prop :=
  Good s ∨ (Follows s ∧ s.ui.signedOut = none ∧ again = true)

lemma Lagging.shows {again : Bool} (h : Lagging again s) {f : AccountUi → AccountUi}
    (hsel : (f s.ui).selected = s.ui.selected) (hout : (f s.ui).signedOut = s.ui.signedOut) :
    Lagging again (s.shows f) :=
  h.imp (fun hg => hg.shows hsel) fun hl => ⟨hl.1, hout.trans hl.2.1, hl.2.2⟩

lemma lagging_selectNew (h : Good s) (hout : s.ui.signedOut = none) (d : Device) (action : Action) :
    Does (fun _ => True) (selectNew D d action) s fun _ t => Lagging true t := by
  refine (does_select D (fun _ _ => trivial) fun _ _ _ _ => ⟨trivial, trivial, trivial⟩).bind ?_
  rintro r t ⟨u, hu, ⟨e, rfl, rfl⟩ | ⟨text, rfl, -, rfl⟩⟩
  · exact (does_failed D downward_true trivial (h.quiet hu) e action).mono fun _ _ ht => Or.inl ht
  · refine Does.update downward_true trivial fun _ => ?_
    have hstored : ((u.take d text).shows fun ui => { ui with notice := none }).storedConfig
        = some text := selected_take u d text
    refine (does_followSelection hstored).mono ?_
    rintro _ t ⟨-, hui, hfollows⟩
    refine Or.inr ⟨hfollows, ?_, rfl⟩
    have hsame : u.ui.signedOut = none := by
      rw [hu.ui]
      exact hout
    rw [hui]
    exact hsame

lemma inStep_add (h : InStep s) (hout : s.ui.signedOut = none) (name : String) :
    Does (fun _ => True) (add D name) s fun _ t => InStep t := by
  unfold add
  cases validateDeviceName name with
  | some problem => exact Does.ret h
  | none =>
      have hwork : Does (fun _ => True) (addWork D name)
          (s.shows fun ui => { ui with busy := true, error := none }) fun a t => Lagging a t := by
        have hgood := (h.good hout).shows (f := fun ui => { ui with busy := true, error := none }) rfl
        refine (does_addDevice D (fun _ _ => trivial) name).bind fun r u hu => ?_
        cases r with
        | failed e =>
            refine (does_failed D downward_true trivial (hgood.quiet hu) e _).bind fun _ t ht => ?_
            exact Does.ret (Or.inl ht)
        | ok device =>
            have hout' : u.ui.signedOut = none := by
              rw [hu.ui]
              exact hout
            refine (lagging_selectNew D (hgood.quiet hu) hout' device _).bind fun _ t ht => ?_
            exact Does.ret ht
      refine (does_work downward_true trivial (fun _ => hwork) fun a t (ht : Lagging a t) =>
        ht.shows rfl rfl).bind fun added t ht => ?_
      refine Does.look trivial (Does.ite (fun _ => ?_) fun hno => ?_)
      · have hfollows : Follows t := ht.elim Good.follows And.left
        exact (does_load D downward_true trivial hfollows).bind fun _ t ht => Does.ret ht.inStep
      · exact Does.ret (ht.resolve_right fun hl => hno ⟨hl.2.2, hl.2.1⟩).inStep

lemma inStep_startTrial (h : InStep s) (hout : s.ui.signedOut = none) :
    Does (fun _ => True) (startTrial D) s fun _ t => InStep t := by
  have hwork : Does (fun _ => True) (trialWork D)
      (s.shows fun ui => { ui with busy := true, error := none }) fun a t => Lagging a t := by
    have hgood := (h.good hout).shows (f := fun ui => { ui with busy := true, error := none }) rfl
    refine (does_asking D (fun _ _ => trivial) fun k v hv => does_call D (fun _ _ => trivial) hv).bind
      fun r u hu => ?_
    cases r with
    | failed e =>
        refine (does_failed D downward_true trivial (hgood.quiet hu) e _).bind fun _ t ht => ?_
        exact Does.ret (Or.inl ht)
    | ok device =>
        have hout' : u.ui.signedOut = none := by
          rw [hu.ui]
          exact hout
        refine (lagging_selectNew D (hgood.quiet hu) hout' device _).bind fun _ t ht => ?_
        exact Does.ret ht
  refine (does_work downward_true trivial (fun _ => hwork) fun a t (ht : Lagging a t) =>
    ht.shows rfl rfl).bind fun reload t ht => ?_
  refine Does.look trivial (Does.ite (fun _ => ?_) fun hno => ?_)
  · have hfollows : Follows t := ht.elim Good.follows And.left
    refine Does.look trivial ((does_load D downward_true trivial hfollows).bind fun _ t ht => ?_)
    exact does_update downward_true trivial (ht.shows rfl).inStep
  · exact Does.ret (ht.resolve_right fun hl => hno ⟨hl.2.2, hl.2.1⟩).inStep

lemma inStep_rename (h : InStep s) (d : Device) (name : String) :
    Does (fun _ => True) (rename D d name) s fun _ t => InStep t := by
  unfold rename
  cases validateDeviceName name with
  | some problem => exact Does.ret h
  | none =>
      have hbears : ∀ v, Bears (fun _ => True) v := fun v => bears_of_downward downward_true trivial
      refine (inStep_work downward_true trivial h fun v _ hv _ _ => ?_).bind fun ok t ht => ?_
      · rcases hv.2 with hshown | hw
        · have hgood : Good v := ⟨hshown, hv.1⟩
          refine (does_renameDevice D (hbears v) d.id name).bind ?_
          rintro r t ⟨u, hu, ht⟩
          cases r with
          | ok renamed =>
              have hfollows : Follows t := by
                rcases ht with rfl | ⟨x, -, rfl⟩
                · exact hv.1.quiet hu
                · exact (hv.1.quiet hu).renamed x.name
              refine (does_refreshSelected downward_true trivial hfollows).bind fun _ t ht => ?_
              exact Does.ret ht.inStep
          | failed e =>
              obtain rfl : t = u := ht.resolve_right fun ⟨x, hx, _⟩ => by cases hx
              refine (does_failed D downward_true trivial (hgood.quiet hu) e _).bind fun _ t ht => ?_
              exact Does.ret ht.inStep
        · refine (does_wiped D trivial hw).bind ?_
          rintro r t ⟨rfl, rfl⟩
          refine (inStep_failed D downward_true trivial hv (Or.inr rfl) _).bind fun _ t ht => ?_
          exact Does.ret ht
      · refine Does.ite (fun _ => ?_) fun _ => Does.ret ht
        exact (inStep_load D downward_true trivial ht).bind fun _ t ht => Does.ret ht

/-- The request of a removal, with the tunnel down if it is on that device. -/
lemma inStep_deleteRequest (hI : Downward I) (hs : I s) (h : InStep s) {d : Device}
    (hd : s.selected.map Selected.id = some d.id → s.tunnel = none) :
    Does I (deleteRequest D d) s fun _ t => InStep t := by
  rcases h.2 with hshown | hw
  · have hgood : Good s := ⟨hshown, h.1⟩
    refine ((does_deleteDevice D (bears_of_downward hI hs) d.id).along hs).bind ?_
    rintro r t ⟨⟨u, hu, ht⟩, hIt⟩
    rcases ht with ⟨rfl, -⟩ | ⟨rfl, rfl, hid⟩
    · cases r with
      | ok _ =>
          refine (does_refreshSelected hI hIt (h.1.quiet hu)).bind fun _ t ht => ?_
          exact Does.ret ht.inStep
      | failed e =>
          refine (does_failed D hI hIt (hgood.quiet hu) e _).bind fun _ t ht => ?_
          exact Does.ret ht.inStep
    · -- forgotten: the tunnel was on this device and is down, or was down anyway
      have hdown : s.tunnel = none := by
        cases hsel : s.selected with
        | none => exact h.1.down hsel
        | some sel =>
            have hown := (Phone.selected_eq_some.mp hsel).1
            rw [hid] at hown
            exact hd (by rw [hsel, Option.map_some, hown])
      have hfollows : Follows u.forget := .of_down (hu.tunnel.trans hdown)
      refine (does_refreshSelected hI hIt hfollows).bind fun _ t ht => ?_
      exact Does.ret ht.inStep
  · refine (does_wiped D hs hw).bind ?_
    rintro r t ⟨rfl, rfl⟩
    refine (inStep_failed D hI hs h (Or.inr rfl) _).bind fun _ t ht => ?_
    exact Does.ret ht

/-- Nothing has been sent yet, or the tunnel is down. -/
def DownFirst (s v : Phone) : Prop := v.log = s.log ∨ v.tunnel = none

/-- **A removal** of the device on the screens: from the first request on the
tunnel is down. -/
lemma does_delete_shown (h : InStep s) {d : Device}
    (hd : s.ui.selected.map Selected.id = some d.id) :
    Does (DownFirst s) (delete D d) s fun _ t => InStep t := by
  have hdown : ∀ v, v.tunnel = none → DownFirst s v := fun v hv => Or.inr hv
  refine Does.look (Or.inl rfl) (Does.change (Or.inl rfl) ?_)
  rw [hd, beq_self_eq_true]
  have hrequest : Does (fun v => v.tunnel = none) (deleteRequest D d)
      (((s.shows fun ui => { ui with notice := none }).shows
        fun ui => { ui with busy := true, error := none }).down) fun _ t => InStep t := by
    refine inStep_deleteRequest D downward_down rfl ⟨.of_down rfl, ?_⟩ fun _ => rfl
    exact h.2.imp id fun hw => ⟨hw.out, hw.nothing⟩
  have hwork : Does (DownFirst s) (work (deleteWork D d true))
      (s.shows fun ui => { ui with notice := none }) fun _ t => InStep t ∧ t.tunnel = none := by
    refine Does.change (Or.inl rfl) ?_
    refine Does.bind (Does.change (Or.inr rfl) ((hrequest.along rfl).weaken hdown)) ?_
    rintro ok t ⟨ht, hdn⟩
    exact Does.change (Or.inr hdn) (Does.ret ⟨ht.shows rfl id, hdn⟩)
  refine hwork.bind ?_
  rintro ok t ⟨ht, hdn⟩
  exact Does.ite (fun _ => (inStep_load D downward_down hdn ht).weaken hdown) fun _ => Does.ret ht

lemma inStep_delete (h : InStep s) (d : Device) :
    Does (fun _ => True) (delete D d) s fun _ t => InStep t := by
  by_cases hd : s.ui.selected.map Selected.id = some d.id
  · exact (does_delete_shown D h hd).weaken fun _ _ => trivial
  · refine Does.look trivial (Does.update downward_true trivial fun _ => ?_)
    have hoff : (s.ui.selected.map Selected.id == some d.id) = false := by simpa using hd
    rw [hoff]
    have hnotice : InStep (s.shows fun ui => { ui with notice := none }) := h.shows rfl id
    refine (inStep_work downward_true trivial hnotice fun v _ hv hsel htunnel => ?_).bind
      fun ok t ht => ?_
    · refine inStep_deleteRequest D downward_true trivial hv fun hown => ?_
      have hown' : s.selected.map Selected.id = some d.id := by
        rw [hsel] at hown
        exact hown
      rcases h.2 with hshown | hw
      · exact absurd (hshown ▸ hown') hd
      · simp [Phone.selected, hw.nothing] at hown'
    · exact Does.ite (fun _ => inStep_load D downward_true trivial ht) fun _ => Does.ret ht

lemma inStep_resendConfirmation (h : InStep s) :
    Does (fun _ => True) (resendConfirmation D) s fun _ t => InStep t := by
  refine Does.update downward_true trivial fun _ => ?_
  have hnotice : InStep (s.shows fun ui => { ui with notice := none }) := h.shows rfl id
  refine (inStep_work downward_true trivial hnotice fun v _ hv _ _ => ?_).bind fun ok t ht => ?_
  · rcases hv.2 with hshown | hw
    · have hgood : Good v := ⟨hshown, hv.1⟩
      refine (does_asking D (fun _ _ => trivial) fun k w hw => does_call D (fun _ _ => trivial) hw).bind
        fun r t ht => ?_
      cases r with
      | failed e =>
          refine (does_failed D downward_true trivial (hgood.quiet ht) e _).bind fun _ t ht => ?_
          exact Does.ret ht.inStep
      | ok confirmed =>
          refine Does.ite (fun _ => Does.ret (hgood.quiet ht).inStep) fun _ => ?_
          refine Does.update downward_true trivial fun _ => ?_
          exact Does.ret ((hgood.quiet ht).shows rfl).inStep
    · refine (does_wiped D trivial hw).bind ?_
      rintro r t ⟨rfl, rfl⟩
      refine (inStep_failed D downward_true trivial hv (Or.inr rfl) _).bind fun _ t ht => ?_
      exact Does.ret ht
  · exact Does.ite (fun _ => inStep_load D downward_true trivial ht) fun _ => Does.ret ht

lemma inStep_checkRelease (h : InStep s) :
    Does (fun _ => True) (checkRelease D) s fun _ t => InStep t := by
  refine Does.look trivial (Does.ite (fun _ => Does.ret h) fun _ => ?_)
  have hsent : ∀ a, InStep (s.sent .latestRelease none a) := fun a =>
    ⟨h.1, h.2.imp id fun hw => ⟨hw.out, hw.nothing⟩⟩
  refine (Does.call (Q := fun _ t => InStep t) D (fun _ => trivial) hsent).bind fun r t ht => ?_
  cases r with
  | ok release => exact does_update downward_true trivial (ht.shows rfl id)
  | failed e => exact Does.ret ht

/-- **Sign-out**: the tunnel is down from the first step on. -/
lemma does_accountSignOut (s : Phone) :
    Does (fun v => v.tunnel = none) (signOut D) s fun _ t => InStep t := by
  refine Does.change rfl ?_
  refine (does_signOut D (fun v hv => hv.tunnel) fun v hv => hv.tunnel).bind ?_
  rintro _ t ⟨u, rfl, hu⟩
  have hdown : u.tunnel = none := by
    rcases hu with rfl | ⟨r, a, rfl⟩ <;> rfl
  refine does_update downward_down hdown ⟨.of_down hdown, Or.inr ⟨Option.some_ne_none _, fun _ => rfl⟩⟩

lemma inStep_connect (h : InStep s) : Does (fun _ => True) connect s fun _ t => InStep t := by
  refine (does_storedConfig trivial).bind ?_
  rintro r t ⟨rfl, rfl⟩
  cases hc : t.storedConfig with
  | none => exact Does.ret h
  | some conf =>
      refine Does.change_last trivial ⟨?_, h.2.imp id fun hw => ⟨hw.out, hw.nothing⟩⟩
      rintro c ⟨⟩
      exact hc

lemma inStep_disconnect (h : InStep s) : Does (fun _ => True) tunnelDown s fun _ t => InStep t :=
  Does.change_last trivial ⟨.of_down rfl, h.2.imp id fun hw => ⟨hw.out, hw.nothing⟩⟩

end Operations

/-! ### A use of the account -/

/-- An addition and a trial begin only while the session is not over. -/
def Op.MayBegin (op : Op) (s : Phone) : Prop :=
  (∃ name, op = .add name) ∨ op = .startTrial → s.ui.signedOut = none

variable {D}

lemma inStep_op {op : Op} (h : InStep s) (hop : op.MayBegin s) :
    Does (fun _ => True) (op.run D) s fun _ t => InStep t := by
  cases op with
  | load => exact inStep_load D downward_true trivial h
  | use device => exact inStep_use D h device
  | add name => exact Does.map (inStep_add D h (hop (Or.inl ⟨name, rfl⟩)) name)
  | rename device name => exact Does.map (inStep_rename D h device name)
  | delete device => exact inStep_delete D h device
  | startTrial => exact inStep_startTrial D h (hop (Or.inr rfl))
  | resendConfirmation => exact inStep_resendConfirmation D h
  | checkRelease => exact inStep_checkRelease D h
  | signOut => exact (does_accountSignOut D s).weaken fun _ _ => trivial
  | dismissNotice => exact does_update downward_true trivial (h.shows rfl id)
  | connect => exact inStep_connect h
  | disconnect => exact inStep_disconnect h

/-- An operation that was run to its end. -/
structure Turn where
  before : Phone
  op : Op
  after : Phone

variable (D) in
/-- A use of the account: it begins with `load`, and operations and presses of
the switch follow one after another. -/
inductive Uses (s₀ : Phone) : List Turn → Phone → Prop where
  | first {t : Phone} : Runs (fun _ _ => True) (load D) s₀ (.ok ()) t → Uses s₀ [⟨s₀, .load, t⟩] t
  | next {l : List Turn} {s t : Phone} {op : Op} : Uses s₀ l s →
      Runs (fun _ _ => True) (op.run D) s (.ok ()) t → Uses s₀ (l ++ [⟨s, op, t⟩]) t

/-- After the operation the screens show the stored device, unless the session is
over, and a tunnel that is up runs the stored config. -/
def Turn.Settled (x : Turn) : Prop :=
  (x.after.ui.signedOut ≠ none ∨ x.after.ui.selected = x.after.selected)
    ∧ ∀ c, x.after.tunnel = some c → x.after.storedConfig = some c

/-- The line has come to the log since `s`. -/
def Logged (s v : Phone) (e : Event) : Prop := ∃ ev, v.log = s.log ++ ev ∧ e ∈ ev

/-- Wherever the operation has come to: once the removal of the selected device
has been sent, or the store has been wiped, the tunnel is down. -/
def Turn.DownInTime (x : Turn) (v : Phone) : Prop :=
  (∀ d k a, x.op = .delete d → x.before.selected.map Selected.id = some d.id →
      Logged x.before v (.sent (.deleteDevice d.id) k a) → v.tunnel = none)
    ∧ (x.op = .signOut → Logged x.before v .wipe → v.tunnel = none)

variable {s₀ : Phone} {l : List Turn}

/-- Every operation of a use begins and ends in step; the first one is `load`. -/
lemma Uses.inStep (h : Uses D s₀ l s) (h₀ : Follows s₀) (hl : ∀ x ∈ l, x.op.MayBegin x.before) :
    InStep s ∧ ∀ x ∈ l, InStep x.after ∧ (InStep x.before ∨ x.op = .load) := by
  induction h with
  | @first t hrun =>
      have hgood : Good t := (does_load D downward_true trivial h₀).runs hrun
      refine ⟨hgood.inStep, fun x hx => ?_⟩
      rw [List.mem_singleton.mp hx]
      exact ⟨hgood.inStep, Or.inr rfl⟩
  | @next l s t op _ hrun ih =>
      obtain ⟨hs, hbefore⟩ := ih fun x hx => hl x (by simp [hx])
      have hop : op.MayBegin s := hl ⟨s, op, t⟩ (by simp)
      have ht : InStep t := (inStep_op hs hop).runs hrun
      refine ⟨ht, fun x hx => ?_⟩
      rcases List.mem_append.mp hx with hx | hx
      · exact hbefore x hx
      · rw [List.mem_singleton.mp hx]
        exact ⟨ht, Or.inl hs⟩

lemma log_ne_of_logged {v : Phone} {e : Event} (h : Logged s v e) : v.log ≠ s.log := by
  obtain ⟨ev, hlog, he⟩ := h
  intro heq
  have hnil : ev = [] := by simpa [heq] using hlog
  simp [hnil] at he

lemma downInTime {x : Turn} (h : InStep x.before ∨ x.op = .load) {q : Code Unit} {v : Phone}
    (hreach : Reaches (x.op.run D) x.before q v) : x.DownInTime v := by
  constructor
  · intro d k a hop hsel hlogged
    rcases h with h | hload
    · -- the screens show the selected device, or nothing is selected at all
      have hshown : x.before.ui.selected.map Selected.id = some d.id := by
        rcases h.2 with hshown | hw
        · rw [hshown]
          exact hsel
        · simp [Phone.selected, hw.nothing] at hsel
      rw [hop] at hreach
      have hdown := ((does_delete_shown D h hshown).reaches (Or.inl rfl) hreach).1
      exact hdown.resolve_left (log_ne_of_logged hlogged)
    · rw [hload] at hop
      cases hop
  · intro hop hlogged
    rw [hop] at hreach
    have hdoes : Does (DownFirst x.before) (signOut D) x.before fun _ t => InStep t :=
      (does_accountSignOut D x.before).weaken fun v hv => Or.inr hv
    have hdown := (hdoes.reaches (Or.inl rfl) hreach).1
    exact hdown.resolve_left (log_ne_of_logged hlogged)

/-- **The phone shows, stores and runs the same device.** In every use of the
account that begins with `load` on a phone whose tunnel follows its store, and
in which no addition and no trial begins once the session is over, with every
answer of the portal: after each operation the screens show the stored device,
or the session is over, and a tunnel that is up runs the stored config; and the
tunnel is down before the removal of the selected device is sent and before the
store is wiped. -/
theorem phone_in_step (h : Uses D s₀ l s) (h₀ : Follows s₀)
    (hl : ∀ x ∈ l, x.op.MayBegin x.before) :
    (∀ x ∈ l, x.Settled)
      ∧ ∀ x ∈ l, ∀ q v, Reaches (x.op.run D) x.before q v → x.DownInTime v := by
  have hsteps := (h.inStep h₀ hl).2
  refine ⟨fun x hx => ?_, fun x hx q v hreach => downInTime (hsteps x hx).2 hreach⟩
  obtain ⟨hfollows, hshown⟩ := (hsteps x hx).1
  exact ⟨hshown.symm.imp_left Wiped.out, hfollows⟩

/-! ### An addition, in a session and after its end -/

def renewedBody : String := "\x7b\"access_token\":\"T2\",\"role\":\"client\"\x7d"

def addedBody : String := "\x7b\"config\":\x7b\"id\":\"7f0c2b8e\",\"name\":\"tab\"\x7d,\"used\":1,\"limit\":2\x7d"

def removedBody : String := "\x7b\"removed\":\"7f0c2b8e\"\x7d"

def profileBody : String := "\x7b\"username\":\"ann\",\"is_subscribed\":true,\"active\":true\x7d"

def noneBody : String := "\x7b\"limit\":2,\"used\":0,\"configs\":[]\x7d"

def tabBody : String :=
  "\x7b\"limit\":2,\"used\":1,\"configs\":[\x7b\"id\":\"7f0c2b8e\",\"name\":\"tab\"\x7d]\x7d"

def tabConf : String := "[Interface] tab\nPrivateKey = K3\n"

def tabDevice : Device := ⟨"7f0c2b8e", "tab", none, none, none⟩

/-- The library on the answers below. -/
def tabAnswers : Decoders :=
  { Decoders.unreadable with
    tokenResponse := fun body =>
      if body = renewedBody then .ok ⟨"T2", "client", none⟩ else .error none
    profile := fun body =>
      if body = profileBody then .ok ⟨"ann", none, true, none, none, some true, none, none⟩ else .error none
    deviceList := fun body =>
      if body = noneBody then .ok ⟨none, 2, 0, []⟩
      else if body = tabBody then .ok ⟨none, 2, 1, [tabDevice]⟩ else .error none
    addedDevice := fun body => if body = addedBody then .ok tabDevice else .error none
    removedDevice := fun body => if body = removedBody then .ok "7f0c2b8e" else .error none }

/-- The answers in order, one for each request in the log; the last is none at
all. -/
def script (answers : List Answer) (s : Phone) : Outside :=
  let n := s.log.countP fun e => match e with
    | .sent _ _ _ => true
    | _ => false
  ⟨answers.getD n (.error .other), 0⟩

/-- The session ends with the first reading of the account. -/
def overAnswers : List Answer := [.ok ⟨401, "expired"⟩, .ok ⟨200, renewedBody⟩, .ok ⟨401, "expired"⟩,
  .ok ⟨200, renewedBody⟩, .ok ⟨201, addedBody⟩, .ok ⟨200, tabConf⟩, .ok ⟨200, removedBody⟩]

/-- It goes on. -/
def liveAnswers : List Answer := [.ok ⟨200, profileBody⟩, .ok ⟨200, noneBody⟩, .ok ⟨201, addedBody⟩,
  .ok ⟨200, tabConf⟩, .ok ⟨200, profileBody⟩, .ok ⟨200, tabBody⟩, .ok ⟨200, removedBody⟩,
  .ok ⟨200, profileBody⟩, .ok ⟨200, noneBody⟩]

/-- Signed in, no device chosen. -/
def tokensOnly : Phone := (newPhone.put .token "T1").put .refresh "R1"

def ranOn (answers : List Answer) (op : Op) (s : Phone) : Phone :=
  (playBy (script answers) (op.run tabAnswers) s).2

/-- The account is read, -/
def readPhone (answers : List Answer) : Phone := ranOn answers .load tokensOnly

/-- a device is added and selected, -/
def addedPhone (answers : List Answer) : Phone := ranOn answers (.add "tab") (readPhone answers)

/-- the user connects, -/
def connectedPhone (answers : List Answer) : Phone := ranOn answers .connect (addedPhone answers)

/-- and the device is removed, with the tunnel on it. -/
def removedPhone (answers : List Answer) : Phone := ranOn answers (.delete tabDevice) (connectedPhone answers)

lemma runs_ranOn (answers : List Answer) (op : Op) (s : Phone) :
    Runs (fun _ _ => True) (op.run tabAnswers) s (.ok ()) (ranOn answers op s) := by
  have hrun := runs_playBy (J := fun _ _ => True) (π := script answers) (fun _ => trivial)
    (op.run tabAnswers) s
  cases hr : (playBy (script answers) (op.run tabAnswers) s).1 with
  | error e => exact nomatch e
  | ok u =>
      rw [hr] at hrun
      exact hrun

/-- The four operations. -/
def fourTurns (answers : List Answer) : List Turn :=
  [⟨tokensOnly, .load, readPhone answers⟩, ⟨readPhone answers, .add "tab", addedPhone answers⟩,
    ⟨addedPhone answers, .connect, connectedPhone answers⟩,
    ⟨connectedPhone answers, .delete tabDevice, removedPhone answers⟩]

lemma uses_fourTurns (answers : List Answer) :
    Uses tabAnswers tokensOnly (fourTurns answers) (removedPhone answers) :=
  (((Uses.first (runs_ranOn answers .load _)).next (runs_ranOn answers (.add "tab") _)).next
    (runs_ranOn answers .connect _)).next (runs_ranOn answers (.delete tabDevice) _)

/-- **A tunnel without a device.** The portal refuses the stored token and the one it
issues instead: the session is over, but its refresh token still works. An addition
selects a device the screens do not show, so its removal does not bring the tunnel down,
and the tunnel runs on with nothing stored. -/
theorem tunnel_outlives_device : ¬ ∀ (s₀ s : Phone) (l : List Turn), Uses tabAnswers s₀ l s →
    Follows s₀ → ∀ x ∈ l, x.Settled := by
  intro hall
  have hdown : Follows tokensOnly := .of_down rfl
  obtain ⟨-, hfollows⟩ := hall _ _ _ (uses_fourTurns overAnswers) hdown
    ⟨connectedPhone overAnswers, .delete tabDevice, removedPhone overAnswers⟩ (by simp [fourTurns])
  have hup : (removedPhone overAnswers).tunnel = some tabConf := by decide +kernel
  have hnone : (removedPhone overAnswers).storedConfig = none := by decide +kernel
  have hconf := hfollows tabConf hup
  rw [hnone] at hconf
  cases hconf

/-- The same in a session that goes on: the tunnel runs on the new device until it is
removed. -/
theorem phone_in_step_live :
    (addedPhone liveAnswers).selected = some ⟨"7f0c2b8e", "tab"⟩
      ∧ (connectedPhone liveAnswers).tunnel = some tabConf ∧ (removedPhone liveAnswers).tunnel = none
      ∧ (removedPhone liveAnswers).ui.signedOut = none
      ∧ (∀ x ∈ fourTurns liveAnswers, x.Settled)
      ∧ ∀ x ∈ fourTurns liveAnswers, ∀ q v, Reaches (x.op.run tabAnswers) x.before q v → x.DownInTime v := by
  refine ⟨by decide +kernel, by decide +kernel, by decide +kernel, by decide +kernel,
    phone_in_step (uses_fourTurns liveAnswers) (.of_down rfl) fun x hx => ?_⟩
  simp only [fourTurns, List.mem_cons, List.not_mem_nil, or_false] at hx
  rcases hx with rfl | rfl | rfl | rfl
  · rintro (⟨name, hop⟩ | hop) <;> cases hop
  · exact fun _ => by decide
  · rintro (⟨name, hop⟩ | hop) <;> cases hop
  · rintro (⟨name, hop⟩ | hop) <;> cases hop

end Account

end VpnPortal.App
