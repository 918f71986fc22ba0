/-
An interrupted selection.

The store keeps a selection as three values: the config, the name and the id of
the device. Each is written and removed on its own, and the process may be
killed after any of these steps; what a new process then finds is what
`selected` and `storedConfig` read. The id is written last and removed first,
which protects a first selection and a removal. It does not protect a selection
that replaces another one: the config of the new device is written while the id
of the old one still stands (`selection_mixed`).

* `Whole`: a stored id has a name and a config that was downloaded for it;
* `Kept`, `does_op`: what every state on the way of an operation satisfies;
* `Life`: operations one after another, each killed at some point or run to its
  end;
* `selection_never_mixed`: at every point of every operation the store holds no
  selection, or a device with its own config, as long as the selection in work, and
  each one broken off before, is made over no id or the device's own.
-/
import VpnPortal.App.Contract

namespace VpnPortal.App

open Sessions Sessions.Proc

variable (D : Decoders)

/-- A stored id comes with a name and with a config downloaded for it. -/
def Whole (s : Phone) : Prop :=
  ∀ id, s.secrets .deviceId = some id →
    (∃ name, s.secrets .deviceName = some name)
      ∧ ∃ text, s.secrets .conf = some text ∧ Fetched D s.log id text

/-- What a process restarted on `v` finds, when the operation `op` was begun on
`s`: no selection, or a device with a config downloaded for that device, and it
is the device selected before or the one `op` was selecting. -/
def Unmixed (s : Phone) (op : Session.Op) (v : Phone) : Prop :=
  (v.selected = none ∧ v.storedConfig = none)
    ∨ ∃ sel text, v.selected = some sel ∧ v.storedConfig = some text ∧ Fetched D v.log sel.id text
        ∧ (s.selected.map Selected.id = some sel.id
          ∨ ∃ d, op = .select d ∧ sel = ⟨d.id, d.name⟩)

/-- The device to be selected meets no id in the store, or its own. -/
def Session.Op.Meets (op : Session.Op) (s : Phone) : Prop :=
  ∀ d, op = .select d → s.secrets .deviceId = none ∨ s.secrets .deviceId = some d.id

/-! ### On the way of one operation -/

/-- Whole, and with no id, the id of `s`, or the device that `op` selects. -/
def Kept (s : Phone) (op : Session.Op) (v : Phone) : Prop :=
  Whole D v ∧ (v.secrets .deviceId = none ∨ v.secrets .deviceId = s.secrets .deviceId
    ∨ ∃ d, op = .select d ∧ v.secrets .deviceId = some d.id ∧ v.secrets .deviceName = some d.name)

section Way

variable {D} {s v : Phone} {op : Session.Op}

lemma Whole.quiet (h : Whole D s) (hv : Quiet s v) : Whole D v := by
  intro id hid
  rw [hv.device .deviceId trivial] at hid
  obtain ⟨⟨name, hname⟩, text, htext, hf⟩ := h id hid
  exact ⟨⟨name, (hv.device .deviceName trivial).trans hname⟩, text,
    (hv.device .conf trivial).trans htext, hf.mono hv.log⟩

lemma Whole.of_no_id (h : v.secrets .deviceId = none) : Whole D v := by
  intro id hid
  rw [h] at hid
  cases hid

lemma Kept.of_no_id (h : v.secrets .deviceId = none) : Kept D s op v :=
  ⟨Whole.of_no_id h, Or.inl h⟩

lemma Kept.quiet (h : Whole D s) (hv : Quiet s v) : Kept D s op v :=
  ⟨h.quiet hv, Or.inr (Or.inl (hv.device .deviceId trivial))⟩

/-- A rename of the stored device, and a removal that takes the id first. -/
lemma Kept.bears (h : Whole D s) : Bears (Kept D s op) s where
  quiet v hv := .quiet h hv
  forget v hv := by
    refine ⟨.of_no_id ?_, .of_no_id ?_, .of_no_id ?_⟩ <;> simp [Phone.forget, Phone.remove]
  rename v id name hv hid := by
    have hsame : (v.put .deviceName name).secrets .deviceId = v.secrets .deviceId := by
      simp [Phone.put]
    refine ⟨fun id' hid' => ?_,
      Or.inr (Or.inl (hsame.trans (hv.device .deviceId trivial)))⟩
    rw [hsame] at hid'
    obtain ⟨-, text, htext, hf⟩ := h.quiet hv id' hid'
    exact ⟨⟨name, by simp [Phone.put]⟩, text, by simpa [Phone.put] using htext, hf⟩

/-- The three writes of `select`, over no id or over the device's own. -/
lemma Kept.bearsTaking {d : Device} (h : Whole D s)
    (hid : s.secrets .deviceId = none ∨ s.secrets .deviceId = some d.id) :
    BearsTaking D (Kept D s (.select d)) s d := by
  intro v text hv hf
  have hv' : v.secrets .deviceId = s.secrets .deviceId := hv.device .deviceId trivial
  have hconf : Kept D s (.select d) (v.put .conf text) := by
    have hsame : (v.put .conf text).secrets .deviceId = v.secrets .deviceId := by simp [Phone.put]
    refine ⟨fun id hid' => ?_, Or.inr (Or.inl (hsame.trans hv'))⟩
    rw [hsame] at hid'
    obtain ⟨⟨name, hname⟩, -⟩ := h.quiet hv id hid'
    -- the id that stands is the device's own, so the new config is one of its configs
    have hown : d.id = id := by
      rw [hv'] at hid'
      rcases hid with hid | hid
      · rw [hid] at hid'
        cases hid'
      · exact Option.some.inj (hid.symm.trans hid')
    exact ⟨⟨name, by simpa [Phone.put] using hname⟩, text, by simp [Phone.put], hown ▸ hf⟩
  have hname : Kept D s (.select d) ((v.put .conf text).put .deviceName d.name) := by
    have hsame : ((v.put .conf text).put .deviceName d.name).secrets .deviceId
        = (v.put .conf text).secrets .deviceId := by simp [Phone.put]
    refine ⟨fun id hid' => ?_, ?_⟩
    · rw [hsame] at hid'
      obtain ⟨-, text', htext', hf'⟩ := hconf.1 id hid'
      exact ⟨⟨d.name, by simp [Phone.put]⟩, text', by simpa [Phone.put] using htext', hf'⟩
    · refine Or.inr (Or.inl ?_)
      simpa [Phone.put] using hv'
  refine ⟨hconf, hname, fun id hid' => ?_, Or.inr (Or.inr ⟨d, rfl, ?_, ?_⟩)⟩
  · have hown : d.id = id := by simpa [Phone.take, Phone.put] using hid'
    exact ⟨⟨d.name, by simp [Phone.take, Phone.put]⟩, text, by simp [Phone.take, Phone.put],
      hown ▸ hf⟩
  · simp [Phone.take, Phone.put]
  · simp [Phone.take, Phone.put]

/-- **One operation.** From a whole store, every state on its way is kept. -/
lemma does_op (h : Whole D s) (hop : op.Meets s) :
    Does (Kept D s op) (op.run D) s fun _ _ => True := by
  have hI : ∀ v, Quiet s v → Kept D s op v := fun v hv => .quiet h hv
  have hasking : ∀ {T : Type} {e : Endpoint} {parse : String → Except (Option String) T},
      Does (Kept D s op) (ApiResult.error? <$> Session.authorized D
        fun token => call D e (some token) parse) s fun _ _ => True := fun {T e parse} =>
    Does.map ((does_asking D hI fun k v hv => does_call D hI hv).mono fun _ _ _ => trivial)
  have hpublic : ∀ {T : Type} {e : Endpoint} {parse : String → Except (Option String) T},
      Does (Kept D s op) (ApiResult.error? <$> call D e none parse) s fun _ _ => True :=
    fun {T e parse} => Does.map ((does_call D hI (.refl s)).mono fun _ _ _ => trivial)
  cases op with
  | signIn username password =>
      exact Does.map ((does_signIn D hI (.refl s) username password).mono fun _ _ _ => trivial)
  | register username email password =>
      exact Does.map ((does_register D hI username email password).mono fun _ _ _ => trivial)
  | profile => exact hasking
  | devices => exact Does.map ((does_devices D (Kept.bears h)).mono fun _ _ _ => trivial)
  | deleteDevice deviceId =>
      exact Does.map ((does_deleteDevice D (Kept.bears h) deviceId).mono fun _ _ _ => trivial)
  | addDevice name => exact Does.map ((does_addDevice D hI name).mono fun _ _ _ => trivial)
  | startTrial => exact hasking
  | resendVerification => exact hasking
  | trialOffer => exact hpublic
  | latestRelease => exact hpublic
  | renameDevice deviceId name =>
      exact Does.map ((does_renameDevice D (Kept.bears h) deviceId name).mono fun _ _ _ => trivial)
  | select d =>
      exact Does.map ((does_select D hI (Kept.bearsTaking h (hop d rfl))).mono fun _ _ _ => trivial)
  | signOut =>
      exact Does.map ((does_signOut D hI fun v _ => .of_no_id rfl).mono fun _ _ _ => trivial)

/-- A whole store has a selection exactly when it has an id. -/
lemma Whole.selected_eq (h : Whole D v) {id : String} (hid : v.secrets .deviceId = some id) :
    ∃ name text, v.selected = some ⟨id, name⟩ ∧ v.storedConfig = some text
      ∧ v.secrets .deviceName = some name ∧ Fetched D v.log id text := by
  obtain ⟨⟨name, hname⟩, text, htext, hf⟩ := h id hid
  have hsel : v.selected = some ⟨id, name⟩ := by simp [Phone.selected, hid, hname, htext]
  exact ⟨name, text, hsel, by simp [Phone.storedConfig, hsel, htext], hname, hf⟩

/-- The three writes of `select` together. -/
lemma whole_take {d : Device} {text : String} {u : Phone} (hf : Fetched D u.log d.id text) :
    Whole D (u.take d text) := by
  intro id hid
  have hown : d.id = id := by simpa [Phone.take, Phone.put] using hid
  exact ⟨⟨d.name, by simp [Phone.take, Phone.put]⟩, text, by simp [Phone.take, Phone.put], hown ▸ hf⟩

lemma Kept.unmixed (h : Whole D s) (hv : Kept D s op v) : Unmixed D s op v := by
  cases hid : v.secrets .deviceId with
  | none =>
      have hsel : v.selected = none := by simp [Phone.selected, hid]
      exact Or.inl ⟨hsel, by simp [Phone.storedConfig, hsel]⟩
  | some id =>
      obtain ⟨name, text, hsel, hconf, hname, hf⟩ := hv.1.selected_eq hid
      refine Or.inr ⟨⟨id, name⟩, text, hsel, hconf, hf, ?_⟩
      rcases hv.2 with hnone | hsame | ⟨d, hd, hdid, hdname⟩
      · rw [hid] at hnone
        cases hnone
      · obtain ⟨name', -, hs, -⟩ := h.selected_eq (hsame.symm.trans hid)
        exact Or.inl (by rw [hs]; rfl)
      · refine Or.inr ⟨d, hd, ?_⟩
        rw [hid] at hdid
        rw [hname] at hdname
        rw [Option.some.inj hdid, Option.some.inj hdname]

end Way

/-! ### The life of a store -/

/-- An operation of a life: the phone it was begun on, and whether it was run to its end. -/
structure Past where
  before : Phone
  op : Session.Op
  ended : Bool

/-- Operations from an empty store, each broken off at some point or run to its end. -/
inductive Life : List Past → Phone → Prop where
  | empty {s : Phone} : (∀ k, s.secrets k = none) → Life [] s
  | next {l : List Past} {s t : Phone} {op : Session.Op} {q : Code (Option ApiError)} :
      Life l s → Reaches (op.run D) s q t → Life (l ++ [⟨s, op, q.result?.isSome⟩]) t

variable {D}

lemma Life.ran {l : List Past} {s : Phone} (h : Life D l s) (op : Session.Op) (is : List Outside)
    (hended : (after is (op.run D) s).1.result?.isSome = true) :
    Life D (l ++ [⟨s, op, true⟩]) (after is (op.run D) s).2 := by
  have hnext := h.next (reaches_after is (op.run D) s)
  rwa [hended] at hnext

/-- A selection that is run to its end leaves a whole store, whatever it replaces. -/
lemma Whole.select {s t : Phone} {d : Device} {q : Code (Option ApiError)} (h : Whole D s)
    (hreach : Reaches ((Session.Op.select d).run D) s q t) (hended : q.result?.isSome = true) :
    Whole D t := by
  have hdoes : Does (fun _ => True) ((Session.Op.select d).run D) s fun _ v => Whole D v := by
    refine Does.map ((does_select D (fun _ _ => trivial) fun _ _ _ _ => ⟨trivial, trivial, trivial⟩).mono
      fun r v hv => ?_)
    obtain ⟨u, hu, ⟨e, -, rfl⟩ | ⟨text, -, hf, rfl⟩⟩ := hv
    · exact h.quiet hu
    · exact whole_take hf
  obtain ⟨r, hr⟩ := Option.isSome_iff_exists.mp hended
  cases r with
  | error e => exact nomatch e
  | ok a => exact hdoes.runs (hreach.runs (runs_of_result hr t))

lemma Life.whole {l : List Past} {s : Phone} (h : Life D l s)
    (hl : ∀ x ∈ l, x.ended = false → x.op.Meets x.before) : Whole D s := by
  induction h with
  | empty hs => exact Whole.of_no_id (hs .deviceId)
  | @next l s t op q _ hreach ih =>
      have hs : Whole D s := ih fun x hx => hl x (by simp [hx])
      have hop : q.result?.isSome = false → op.Meets s := hl ⟨s, op, q.result?.isSome⟩ (by simp)
      by_cases hmeets : op.Meets s
      · exact ((does_op hs hmeets).reaches (.quiet hs (.refl s)) hreach).1.1
      · -- it selects another device, and has ended
        have hended : q.result?.isSome = true := by
          by_contra hno
          exact hmeets (hop (by simpa using hno))
        obtain ⟨d, rfl⟩ : ∃ d, op = .select d := by
          by_contra hno
          exact hmeets fun d hd => absurd ⟨d, hd⟩ hno
        exact hs.select hreach hended

/-- **An interrupted selection is never a mix**, in every life in which the
selection in work, and each one that was broken off before, met no id in the store or
its own: wherever an operation is killed, the store holds no selection, or the
previous device or the new one, with a config that was downloaded for it. -/
theorem selection_never_mixed {l : List Past} {s : Phone} (h : Life D l s)
    (hl : ∀ x ∈ l, x.ended = false → x.op.Meets x.before) {op : Session.Op} (hop : op.Meets s)
    {q : Code (Option ApiError)} {v : Phone} (hkill : Reaches (op.run D) s q v) :
    Unmixed D s op v := by
  have hs : Whole D s := h.whole hl
  exact ((does_op hs hop).reaches (.quiet hs (.refl s)) hkill).1.unmixed hs

/-! ### Two devices -/

/-- The library on the one token of the runs below. -/
def oneToken : Decoders :=
  { Decoders.unreadable with
    tokenResponse := fun body =>
      if body = "\x7b\"access_token\":\"T1\",\"role\":\"client\"\x7d" then
        .ok ⟨"T1", "client", none⟩
      else .error none }

def signedReply : Outside :=
  ⟨.ok ⟨200, "\x7b\"access_token\":\"T1\",\"role\":\"client\"\x7d"⟩, 0⟩

def configReply (text : String) : Outside := ⟨.ok ⟨200, text⟩, 0⟩

def phoneConf : String := "[Interface] phone\nPrivateKey = K1\n"

def laptopConf : String := "[Interface] laptop\nPrivateKey = K2\n"

def phoneDevice : Device := ⟨"50ad16ee", "phone", none, none, none⟩

def laptopDevice : Device := ⟨"bddb174e", "laptop", none, none, none⟩

/-- Signed in. -/
def signedPhone : Phone :=
  (after (List.replicate 3 signedReply) (Session.Op.run oneToken (.signIn "paid" "secret"))
    newPhone).2

/-- The first device chosen. -/
def chosenPhone : Phone :=
  (after (List.replicate 5 (configReply phoneConf))
    (Session.Op.run oneToken (.select phoneDevice)) signedPhone).2

/-- Killed while the second one is being chosen, after the first write. -/
def mixedPhone : Phone :=
  (after (List.replicate 3 (configReply laptopConf))
    (Session.Op.run oneToken (.select laptopDevice)) chosenPhone).2

lemma life_chosenPhone : Life oneToken
    [⟨newPhone, .signIn "paid" "secret", true⟩, ⟨signedPhone, .select phoneDevice, true⟩] chosenPhone := by
  have hnew : Life oneToken [] newPhone := .empty fun _ => rfl
  exact (hnew.ran (.signIn "paid" "secret") (List.replicate 3 signedReply) (by decide)).ran
    (.select phoneDevice) (List.replicate 5 (configReply phoneConf)) (by decide +kernel)

/-- **A mix.** The phone uses one device, another one is chosen, and the process
is killed once its config is written: the id and the name of the first device
stand beside the config of the second. -/
theorem selection_mixed : ¬ ∀ (l : List Past) (s : Phone) (op : Session.Op)
    (q : Code (Option ApiError)) (v : Phone), Life oneToken l s → Reaches (op.run oneToken) s q v →
      Unmixed oneToken s op v := by
  intro hall
  have hsel : mixedPhone.selected = some ⟨"50ad16ee", "phone"⟩ := by decide +kernel
  have hconf : mixedPhone.storedConfig = some laptopConf := by decide +kernel
  have hnot : ¬ Fetched oneToken mixedPhone.log "50ad16ee" laptopConf := by
    unfold Fetched
    decide +kernel
  rcases hall _ _ (.select laptopDevice) _ mixedPhone life_chosenPhone (reaches_after _ _ _) with
    ⟨hnone, -⟩ | ⟨sel, text, hsel', hconf', hf, -⟩
  · rw [hsel] at hnone
    cases hnone
  · obtain rfl := Option.some.inj (hsel.symm.trans hsel')
    obtain rfl := Option.some.inj (hconf.symm.trans hconf')
    exact hnot hf

/-- The other device chosen, and all written. -/
def replacedPhone : Phone :=
  (after (List.replicate 5 (configReply laptopConf))
    (Session.Op.run oneToken (.select laptopDevice)) chosenPhone).2

/-- A selection over the device's own id, killed after the same write, after one that
replaced another device. -/
theorem selection_never_mixed_again :
    replacedPhone.selected = some ⟨"bddb174e", "laptop"⟩
      ∧ Unmixed oneToken replacedPhone (.select laptopDevice)
        (after (List.replicate 3 (configReply laptopConf))
          (Session.Op.run oneToken (.select laptopDevice)) replacedPhone).2 := by
  have hlife : Life oneToken
      [⟨newPhone, .signIn "paid" "secret", true⟩, ⟨signedPhone, .select phoneDevice, true⟩,
        ⟨chosenPhone, .select laptopDevice, true⟩] replacedPhone :=
    life_chosenPhone.ran (.select laptopDevice) (List.replicate 5 (configReply laptopConf))
      (by decide +kernel)
  refine ⟨by decide +kernel, selection_never_mixed hlife ?_ ?_ (reaches_after _ _ _)⟩
  · intro x hx hbroken
    simp only [List.mem_cons, List.not_mem_nil, or_false] at hx
    rcases hx with rfl | rfl | rfl <;> cases hbroken
  · rintro d ⟨⟩
    exact Or.inr (by decide +kernel)

end VpnPortal.App
