/-
A session ends only when the portal ends it.

Every call with an access token is wrapped in a renewal: refused with a 401, the
token is dropped, the refresh token is traded for a new one, and the call is
made once more. The laws below are read off the log of the requests that one
operation makes.

* `Asks`: one attempt of a call; `Renewed`: one renewal;
* `Requests`: the requests of an authorized operation, at most three;
* `Honours`, `does_authorized_honours`, `does_lawful`: every operation ends the session
  only by the portal's word, keeps the device's values when it is refused, and asks for
  one new token at most;
* `session_ends_by_portal`: so along every sequence of operations;
  `session_ends_without_401`: a token for another role counts as a refusal.
-/
import VpnPortal.App.Contract

namespace VpnPortal.App

open Sessions Sessions.Proc

variable (D : Decoders)

/-- The portal refuses a refresh token: with a 401, or with a token for another
role than a customer's, which the client takes for a refusal. -/
def Refuses (a : Answer) : Prop :=
  Is401 a ∨ ∃ v, D.read D.tokenResponse a = .ok v ∧ v.role ≠ "client"

/-- Among the requests is a refresh whose answer satisfies `P`. -/
def RefreshAnswered (P : Answer → Prop) (ev : List Event) : Prop :=
  ∃ r a, Event.sent (.refresh r) none a ∈ ev ∧ P a

/-- Among the requests is one with an access token that was answered with 401. -/
def AccessRefused (ev : List Event) : Prop :=
  ∃ e k a, Event.sent e (some k) a ∈ ev ∧ Is401 a

/-- A request for a new token. -/
def Event.isRefresh : Event → Bool
  | .sent (.refresh _) none _ => true
  | _ => false

/-- A request that carries an access token. -/
def Event.isAttempt : Event → Bool
  | .sent _ (some _) _ => true
  | _ => false

/-- Between two attempts the portal has issued the token of the second. -/
def IssuedBetween (ev : List Event) : Prop :=
  ∀ pre mid post e₁ e₂ k₁ k₂ a₁ a₂,
    ev = pre ++ Event.sent e₁ (some k₁) a₁ :: (mid ++ .sent e₂ (some k₂) a₂ :: post) →
      ∃ r b v, Event.sent (.refresh r) none b ∈ mid ∧ D.read D.tokenResponse b = .ok v
        ∧ v.accessToken = k₂

/-! ### One attempt and one renewal -/

/-- One attempt of a call to `e` with the token `k`. -/
structure Asks {T : Type} (e : Endpoint) (k : String) (s : Phone) (r : ApiResult T) (t : Phone) :
    Prop where
  token : t.secrets .token = s.secrets .token
  refresh : t.secrets .refresh = s.secrets .refresh
  log : (t.log = s.log ∧ r ≠ .failed .unauthorized)
    ∨ ∃ a, t.log = s.log ++ [.sent e (some k) a] ∧ (r = .failed .unauthorized ↔ Is401 a)
  device : r = .failed .unauthorized → ∀ key, key.OfDevice → t.secrets key = s.secrets key

/-- One renewal, by what there was to trade and how it was answered. -/
inductive Renewed (s : Phone) : ApiResult String → Phone → Prop where
  | nothing (h : s.secrets .refresh = none) : Renewed s (.failed .unauthorized) s
  | issued {r : String} {a : Answer} {v : TokenResponse} (h : s.secrets .refresh = some r)
      (hv : D.read D.tokenResponse a = .ok v) :
      Renewed s (.ok v.accessToken) ((s.sent (.refresh r) none a).put .token v.accessToken)
  | refused {r : String} {a : Answer} (h : s.secrets .refresh = some r) (ha : Refuses D a) :
      Renewed s (.failed .unauthorized) ((s.sent (.refresh r) none a).remove .refresh)
  | missed {r : String} {a : Answer} {e : ApiError} (h : s.secrets .refresh = some r)
      (he : e ≠ .unauthorized) : Renewed s (.failed e) (s.sent (.refresh r) none a)

/-- The requests of an authorized operation: the call is made with the stored
token, if there is one; refused, or without a token, it is made again with a
token just issued. -/
inductive Requests (e : Endpoint) : List Event → Prop where
  | nothing : Requests e []
  | one (k a) : Requests e [.sent e (some k) a]
  | renewal (r b) : Requests e [.sent (.refresh r) none b]
  | late (k a r b) : Requests e [.sent e (some k) a, .sent (.refresh r) none b]
  | first {r b v} (a) (h : D.read D.tokenResponse b = .ok v) :
      Requests e [.sent (.refresh r) none b, .sent e (some v.accessToken) a]
  | second {r b v} (k a a') (h : D.read D.tokenResponse b = .ok v) :
      Requests e [.sent e (some k) a, .sent (.refresh r) none b, .sent e (some v.accessToken) a']

/-- What one operation may do to the session. -/
structure Honours (s : Phone) (failure : Option ApiError) (ev : List Event) (t : Phone) : Prop where
  log : t.log = s.log ++ ev
  ends : s.isSignedIn → ¬ t.isSignedIn →
    RefreshAnswered (Refuses D) ev ∨ (AccessRefused ev ∧ s.secrets .refresh = none)
  refresh : t.secrets .refresh = s.secrets .refresh ∨ RefreshAnswered (Refuses D) ev
  device : failure = some .unauthorized → ∀ key, key.OfDevice → t.secrets key = s.secrets key

section Spec

variable {D} {s u : Phone}

lemma forClient_unauthorized {a : Answer} {e : ApiError}
    (h : forClient .unauthorized (D.read D.tokenResponse a) = .failed e) :
    (e = .unauthorized ∧ Refuses D a) ∨ e ≠ .unauthorized := by
  cases hr : D.read D.tokenResponse a with
  | ok v =>
      rw [hr] at h
      simp only [forClient] at h
      split_ifs at h with hrole
      cases h
      exact Or.inl ⟨rfl, Or.inr ⟨v, hr, hrole⟩⟩
  | failed e' =>
      rw [hr] at h
      cases h
      by_cases he : e = .unauthorized
      · subst he
        exact Or.inl ⟨rfl, Or.inl (D.read_unauthorized_iff.mp hr)⟩
      · exact Or.inr he

lemma forClient_ok {e : ApiError} {x : ApiResult TokenResponse} {v : TokenResponse}
    (h : forClient e x = .ok v) : x = .ok v := by
  cases x with
  | failed e' => cases h
  | ok w =>
      simp only [forClient] at h
      split_ifs at h
      exact h

lemma does_renewed : Does (fun _ => True) (Session.renew D) s (Renewed D s) := by
  refine Does.get trivial ?_
  cases hr : s.secrets .refresh with
  | none => exact Does.ret (.nothing hr)
  | some r =>
      refine (Does.refresh D (Q := fun x t => ∃ a, x = forClient .unauthorized
        (D.read D.tokenResponse a) ∧ t = s.sent (.refresh r) none a) (fun _ => trivial)
        fun a => ⟨a, rfl, rfl⟩).bind ?_
      rintro x t ⟨a, hx, rfl⟩
      cases x with
      | ok v => exact Does.put trivial (Does.ret (.issued hr (forClient_ok hx.symm)))
      | failed e =>
          refine Does.ite (fun he => ?_) fun he => Does.ret (.missed hr he)
          subst he
          rcases forClient_unauthorized hx.symm with ⟨-, ha⟩ | hne
          · exact Does.remove trivial (Does.ret (.refused hr ha))
          · exact absurd rfl hne

/-- The phone once the stored token, if there was one, has been refused. -/
structure Before (e : Endpoint) (s u : Phone) (ev : List Event) : Prop where
  log : u.log = s.log ++ ev
  token : u.secrets .token = none
  refresh : u.secrets .refresh = s.secrets .refresh
  device : ∀ key, key.OfDevice → u.secrets key = s.secrets key
  tried : (ev = [] ∧ s.secrets .token = none) ∨ ∃ k a, ev = [.sent e (some k) a] ∧ Is401 a

variable {T : Type} {e : Endpoint} {act : String → Code (ApiResult T)} {ev : List Event}

/-- With no refresh token the operation ends there. -/
lemma Before.honours (h : Before e s u ev) (hr : s.secrets .refresh = none) :
    Honours D s (some .unauthorized) ev u where
  log := h.log
  ends hs _ := by
    rcases h.tried with ⟨-, htoken⟩ | ⟨k, a, rfl, ha⟩
    · simp [Phone.isSignedIn, htoken, hr] at hs
    · exact Or.inr ⟨⟨e, k, a, by simp, ha⟩, hr⟩
  refresh := Or.inl h.refresh
  device _ := h.device

lemma Before.requests (h : Before e s u ev) : Requests D e ev := by
  rcases h.tried with ⟨rfl, -⟩ | ⟨k, a, rfl, -⟩
  · exact .nothing
  · exact .one k a

/-- A refused renewal. -/
lemma Before.refused (h : Before e s u ev) {r : String} {a : Answer} (ha : Refuses D a) :
    Honours D s (some .unauthorized) (ev ++ [.sent (.refresh r) none a])
      ((u.sent (.refresh r) none a).remove .refresh) where
  log := by simp [Phone.remove, Phone.sent, h.log]
  ends _ _ := Or.inl ⟨r, a, by simp, ha⟩
  refresh := Or.inr ⟨r, a, by simp, ha⟩
  device _ key hkey := by
    have hne : key ≠ .refresh := by
      rintro rfl
      exact hkey
    simpa [Phone.remove, Phone.sent, hne] using h.device key hkey

/-- A renewal that was not answered. -/
lemma Before.missed (h : Before e s u ev) {r : String} {a : Answer} {err : ApiError}
    (hr : u.secrets .refresh = some r) :
    Honours D s (some err) (ev ++ [.sent (.refresh r) none a]) (u.sent (.refresh r) none a) where
  log := by simp [Phone.sent, h.log]
  ends _ ht := by simp [Phone.isSignedIn, Phone.sent, hr] at ht
  refresh := Or.inl h.refresh
  device _ := h.device

lemma Before.requests_refresh (h : Before e s u ev) (r : String) (a : Answer) :
    Requests D e (ev ++ [.sent (.refresh r) none a]) := by
  rcases h.tried with ⟨rfl, -⟩ | ⟨k, b, rfl, -⟩
  · exact .renewal r a
  · exact .late k b r a

lemma Before.requests_again (h : Before e s u ev) {r : String} {b : Answer} {v : TokenResponse}
    (hv : D.read D.tokenResponse b = .ok v) (a : Answer) :
    Requests D e (ev ++ [.sent (.refresh r) none b, .sent e (some v.accessToken) a]) := by
  rcases h.tried with ⟨rfl, -⟩ | ⟨k, c, rfl, -⟩
  · exact .first a hv
  · exact .second k c a hv

/-- The call made again with a token just issued; refused once more, only that
token goes. -/
lemma Before.again (h : Before e s u ev) {r : String} {b : Answer} {v : TokenResponse}
    (hr : u.secrets .refresh = some r) (hv : D.read D.tokenResponse b = .ok v) {x : ApiResult T}
    {t t' : Phone}
    (hask : Asks e v.accessToken ((u.sent (.refresh r) none b).put .token v.accessToken) x t)
    (ht : t' = t ∨ t' = t.remove .token) :
    ∃ ev', Honours D s x.error? ev' t' ∧ Requests D e ev' := by
  have hlog : t'.log = t.log := by
    rcases ht with rfl | rfl <;> rfl
  have hrefresh : t'.secrets .refresh = some r := by
    have hkept : t.secrets .refresh = some r := by
      rw [hask.refresh]
      simpa [Phone.put, Phone.sent] using hr
    rcases ht with rfl | rfl
    · exact hkept
    · simpa [Phone.remove] using hkept
  have hdevice : x.error? = some .unauthorized → ∀ key, key.OfDevice →
      t'.secrets key = s.secrets key := by
    intro hx key hkey
    have hne : key ≠ .token := by
      rintro rfl
      exact hkey
    have hx' : x = .failed .unauthorized := ApiResult.isUnauthorized_iff.mp (by
      simp [ApiResult.isUnauthorized, hx])
    have hkept : t.secrets key = s.secrets key := by
      rw [hask.device hx' key hkey]
      simpa [Phone.put, Phone.sent, hne] using h.device key hkey
    rcases ht with rfl | rfl
    · exact hkept
    · simpa [Phone.remove, hne] using hkept
  have hhonours : ∀ ev', t'.log = s.log ++ ev' → Honours D s x.error? ev' t' := fun ev' hev =>
    ⟨hev, fun _ hnot => absurd (by simp [Phone.isSignedIn, hrefresh]) hnot,
      Or.inl (by rw [hrefresh, ← h.refresh, hr]), hdevice⟩
  rcases hask.log with ⟨hsame, -⟩ | ⟨a, hsent, -⟩
  · refine ⟨_, hhonours (ev ++ [.sent (.refresh r) none b]) ?_, h.requests_refresh r b⟩
    rw [hlog, hsame]
    simp [Phone.put, Phone.sent, h.log]
  · refine ⟨_, hhonours _ ?_, h.requests_again (r := r) hv a⟩
    rw [hlog, hsent]
    simp [Phone.put, Phone.sent, h.log]

lemma does_again_honours (h : Before e s u ev)
    (hact : ∀ k v, Does (fun _ => True) (act k) v (Asks e k v)) :
    Does (fun _ => True) (Session.again D act) u fun r t =>
      ∃ ev', Honours D s r.error? ev' t ∧ Requests D e ev' := by
  refine does_renewed.bind fun x t hx => ?_
  cases hx with
  | nothing hr => exact Does.ret ⟨ev, h.honours (h.refresh.symm.trans hr), h.requests⟩
  | refused hr ha => exact Does.ret ⟨_, h.refused ha, h.requests_refresh _ _⟩
  | missed hr he => exact Does.ret ⟨_, h.missed hr, h.requests_refresh _ _⟩
  | @issued r b v hr hv =>
      refine (hact _ _).bind fun y t hask => ?_
      refine Does.ite (fun _ => ?_) fun _ => ?_
      · exact Does.remove trivial (Does.ret (h.again hr hv hask (Or.inr rfl)))
      · exact Does.ret (h.again hr hv hask (Or.inl rfl))

/-- **An authorized operation** around a call to `e`. -/
lemma does_authorized_honours (hact : ∀ k v, Does (fun _ => True) (act k) v (Asks e k v)) :
    Does (fun _ => True) (Session.authorized D act) s fun r t =>
      ∃ ev, Honours D s r.error? ev t ∧ Requests D e ev := by
  refine Does.get trivial ?_
  cases htoken : s.secrets .token with
  | none =>
      have hbefore : Before e s s [] :=
        ⟨by simp, htoken, rfl, fun _ _ => rfl, Or.inl ⟨rfl, htoken⟩⟩
      exact does_again_honours hbefore hact
  | some k =>
      refine (hact k s).bind fun x t hask => Does.ite (fun hx => ?_) fun hx => ?_
      · -- the stored token is refused
        have hx' := ApiResult.isUnauthorized_iff.mp hx
        rcases hask.log with ⟨-, hne⟩ | ⟨a, hlog, ha⟩
        · exact absurd hx' hne
        · have hbefore : Before e s (t.remove .token) [.sent e (some k) a] := by
            refine ⟨hlog, by simp [Phone.remove], ?_, fun key hkey => ?_,
              Or.inr ⟨k, a, rfl, ha.mp hx'⟩⟩
            · simpa [Phone.remove] using hask.refresh
            · have hne : key ≠ .token := by
                rintro rfl
                exact hkey
              simpa [Phone.remove, hne] using hask.device hx' key hkey
          exact Does.remove trivial (does_again_honours hbefore hact)
      · have hsigned : t.isSignedIn = s.isSignedIn := by
          simp [Phone.isSignedIn, hask.token, hask.refresh]
        have hhonours : ∀ ev, t.log = s.log ++ ev → Honours D s x.error? ev t := fun ev hev =>
          ⟨hev, fun hs hnot => absurd (hsigned.trans hs) hnot, Or.inl hask.refresh, fun herr =>
            absurd (by simp [ApiResult.isUnauthorized, herr]) hx⟩
        rcases hask.log with ⟨hlog, -⟩ | ⟨a, hlog, -⟩
        · exact Does.ret ⟨[], hhonours [] (by simp [hlog]), .nothing⟩
        · exact Does.ret ⟨_, hhonours _ hlog, .one k a⟩

/-! ### The calls -/

lemma asks_call {parse : String → Except (Option String) T} (k : String) :
    Does (fun _ => True) (call D e (some k) parse) s (Asks e k s) :=
  Does.call D (fun _ => trivial) fun a =>
    ⟨rfl, rfl, Or.inr ⟨a, rfl, D.read_unauthorized_iff⟩, fun _ _ _ => rfl⟩

/-- A call the client refuses to make. -/
lemma asks_rejected {k message : String} :
    Does (fun _ => True) (.ret (.failed (.rejected message)) : Code (ApiResult T)) s (Asks e k s) :=
  Does.ret ⟨rfl, rfl, Or.inl ⟨rfl, by simp⟩, fun h => by simp at h⟩

/-- After an answer that is no refusal the device's values may change. -/
lemma Asks.after {T' : Type} {k : String} {w t : Phone} {r : ApiResult T} {r' : ApiResult T'}
    (h : Asks e k s r w) (hr : r ≠ .failed .unauthorized) (hr' : r' ≠ .failed .unauthorized)
    (ht : t.secrets .token = w.secrets .token ∧ t.secrets .refresh = w.secrets .refresh
      ∧ t.log = w.log) : Asks e k s r' t := by
  refine ⟨ht.1.trans h.token, ht.2.1.trans h.refresh, ?_, fun h' => absurd h' hr'⟩
  rcases h.log with ⟨hlog, -⟩ | ⟨a, hlog, ha⟩
  · exact Or.inl ⟨ht.2.2.trans hlog, hr'⟩
  · refine Or.inr ⟨a, ht.2.2.trans hlog, fun h' => absurd h' hr', fun h' => absurd (ha.mpr h') hr⟩

/-- An error is passed on. -/
lemma Asks.failed {T' : Type} {k : String} {w : Phone} {err : ApiError}
    (h : Asks e k s (.failed err : ApiResult T) w) : Asks e k s (.failed err : ApiResult T') w := by
  refine ⟨h.token, h.refresh, ?_, fun herr => h.device (by cases herr; rfl)⟩
  rcases h.log with ⟨hlog, hne⟩ | ⟨a, hlog, ha⟩
  · exact Or.inl ⟨hlog, fun herr => hne (by cases herr; rfl)⟩
  · exact Or.inr ⟨a, hlog, fun herr => ha.mp (by cases herr; rfl), fun ha' => by
      cases ha.mpr ha'; rfl⟩

lemma forgets (s : Phone) :
    Does (fun _ => True) Session.forgetSelection s fun _ t =>
      t.secrets .token = s.secrets .token ∧ t.secrets .refresh = s.secrets .refresh
        ∧ t.log = s.log :=
  Does.remove trivial (Does.remove trivial (Does.change_last trivial (by simp [Phone.remove])))

lemma asks_deleteCall (deviceId k : String) :
    Does (fun _ => True) (Session.deleteCall D deviceId k) s (Asks (.deleteDevice deviceId) k s) := by
  have hsent : Does (fun _ => True) (deleteDevice D k deviceId) s
      (Asks (.deleteDevice deviceId) k s) := by
    unfold deleteDevice
    exact Does.ite (fun _ => asks_rejected) fun _ => asks_call k
  have hgone : ∀ {r : ApiResult Unit} {w : Phone}, Asks (.deleteDevice deviceId) k s r w →
      r ≠ .failed .unauthorized → Does (fun _ => True) (Session.deleteCall.gone deviceId) w
        (Asks (.deleteDevice deviceId) k s) := by
    intro r w hw hr
    refine Does.get trivial (Does.ite (fun _ => ?_) fun _ => ?_)
    · exact (forgets w).bind fun _ t ht => Does.ret (hw.after hr (by simp) ht)
    · exact Does.ret (hw.after hr (by simp) ⟨rfl, rfl, rfl⟩)
  refine hsent.bind fun r w hw => ?_
  cases r with
  | ok value => exact hgone hw (by simp)
  | failed err =>
      refine Does.ite (fun herr => ?_) fun _ => Does.ret hw
      subst herr
      exact hgone hw (by simp)

lemma asks_renameCall (deviceId name k : String) :
    Does (fun _ => True) (Session.renameCall D deviceId name k) s
      (Asks (.renameDevice deviceId (trim name)) k s) := by
  have hsent : Does (fun _ => True) (renameDevice D k deviceId name) s
      (Asks (.renameDevice deviceId (trim name)) k s) := by
    unfold renameDevice
    refine Does.ite (fun _ => asks_rejected) fun _ => ?_
    exact Does.ite (fun _ => asks_rejected) fun _ => asks_call k
  refine hsent.bind fun r w hw => ?_
  cases r with
  | failed err => exact Does.ret hw
  | ok renamed =>
      refine Does.get trivial (Does.ite (fun _ => ?_) fun _ => Does.ret hw)
      exact Does.put trivial (Does.ret (hw.after (by simp) (by simp) (by simp [Phone.put])))

lemma asks_selectCall (d : Device) (k : String) :
    Does (fun _ => True) (Session.selectCall D d k) s (Asks (.config d.id) k s) := by
  have hsent : Does (fun _ => True) (config D k d.id) s (Asks (.config d.id) k s) := by
    unfold config
    exact Does.ite (fun _ => asks_rejected) fun _ => asks_call k
  refine hsent.bind fun r w hw => ?_
  cases r with
  | failed err => exact Does.ret hw.failed
  | ok text =>
      refine Does.ite (fun _ => Does.ret (hw.after (by simp) (by simp) ⟨rfl, rfl, rfl⟩)) fun _ => ?_
      refine Does.put trivial (Does.put trivial (Does.put trivial (Does.ret ?_)))
      exact hw.after (by simp) (by simp) (by simp [Phone.put])

lemma asks_addDevice (name k : String) :
    Does (fun _ => True) (addDevice D k name) s (Asks (.addDevice (trim name)) k s) := by
  unfold addDevice
  exact Does.ite (fun _ => asks_rejected) fun _ => asks_call k

end Spec

/-! ### One operation -/

/-- An operation that was run: the phone before it, its error if it failed, the
phone after it. -/
structure Turn where
  before : Phone
  op : Session.Op
  failure : Option ApiError
  after : Phone

/-- The operations that are wrapped in a renewal. -/
def Session.Op.Authorized : Session.Op → Prop
  | .signIn _ _ | .register _ _ _ | .trialOffer | .latestRelease | .signOut => False
  | .profile | .devices | .deleteDevice _ | .addDevice _ | .startTrial | .resendVerification
  | .renameDevice _ _ | .select _ => True

/-- The session ends by the portal's word alone: `P` are the answers to a refresh
that end it, `ev` the requests of the operation. -/
structure Turn.Lawful (P : Answer → Prop) (x : Turn) (ev : List Event) : Prop where
  log : x.after.log = x.before.log ++ ev
  ends : x.before.isSignedIn → ¬ x.after.isSignedIn →
    x.op = .signOut ∨ RefreshAnswered P ev ∨ (AccessRefused ev ∧ x.before.secrets .refresh = none)
  refresh : x.failure ≠ none →
    x.after.secrets .refresh = x.before.secrets .refresh ∨ RefreshAnswered P ev
  device : x.failure = some .unauthorized →
    ∀ key, key.OfDevice → x.after.secrets key = x.before.secrets key
  renewals : x.op.Authorized → ev.countP Event.isRefresh ≤ 1
  attempts : x.op.Authorized → ev.countP Event.isAttempt ≤ 2
  between : x.op.Authorized → IssuedBetween D ev

section Operations

variable {D} {s : Phone} {op : Session.Op}

lemma Requests.renewals {e : Endpoint} {ev : List Event} (h : Requests D e ev) :
    ev.countP Event.isRefresh ≤ 1 := by
  cases h <;> simp [List.countP_cons, Event.isRefresh]

lemma Requests.attempts {e : Endpoint} {ev : List Event} (h : Requests D e ev) :
    ev.countP Event.isAttempt ≤ 2 := by
  cases h <;> simp [List.countP_cons, Event.isAttempt]

/-- With one attempt at most there is nothing to show. -/
lemma issuedBetween_of_count {ev : List Event} (h : ev.countP Event.isAttempt ≤ 1) :
    IssuedBetween D ev := by
  rintro pre mid post e₁ e₂ k₁ k₂ a₁ a₂ rfl
  simp only [List.countP_append, List.countP_cons, Event.isAttempt, if_true] at h
  omega

lemma Requests.between {e : Endpoint} {ev : List Event} (h : Requests D e ev) :
    IssuedBetween D ev := by
  cases h with
  | nothing => exact issuedBetween_of_count (by simp)
  | one k a => exact issuedBetween_of_count (by simp [List.countP_cons, Event.isAttempt])
  | renewal r b => exact issuedBetween_of_count (by simp [Event.isAttempt])
  | late k a r b => exact issuedBetween_of_count (by simp [List.countP_cons, Event.isAttempt])
  | first a hv => exact issuedBetween_of_count (by simp [List.countP_cons, Event.isAttempt])
  | @second r b v k a a' hv =>
      intro pre mid post e₁ e₂ k₁ k₂ a₁ a₂ hev
      -- the first attempt is the head, the second one is the last
      cases pre with
      | cons x pre =>
          have htail : [Event.sent (.refresh r) none b, .sent e (some v.accessToken) a']
              = pre ++ .sent e₁ (some k₁) a₁ :: (mid ++ .sent e₂ (some k₂) a₂ :: post) :=
            List.tail_eq_of_cons_eq hev
          have hcount := congrArg (List.countP Event.isAttempt) htail
          simp [List.countP_append, List.countP_cons, Event.isAttempt] at hcount
          omega
      | nil =>
          have htail : [Event.sent (.refresh r) none b, .sent e (some v.accessToken) a']
              = mid ++ .sent e₂ (some k₂) a₂ :: post := List.tail_eq_of_cons_eq hev
          cases mid with
          | nil => simp at htail
          | cons y mid =>
              obtain ⟨rfl, hrest⟩ := List.cons_eq_cons.mp htail
              refine ⟨r, b, v, List.mem_cons_self, hv, ?_⟩
              cases mid with
              | nil =>
                  have hlast := (List.cons_eq_cons.mp hrest).1
                  simp only [Event.sent.injEq, Option.some.injEq] at hlast
                  exact hlast.2.1
              | cons z mid => simp at hrest

/-- An authorized operation is lawful. -/
lemma Honours.lawful {e : Endpoint} {failure : Option ApiError} {ev : List Event} {t : Phone}
    (h : Honours D s failure ev t) (hev : Requests D e ev) :
    Turn.Lawful D (Refuses D) ⟨s, op, failure, t⟩ ev where
  log := h.log
  ends hs ht := Or.inr (h.ends hs ht)
  refresh _ := h.refresh
  device := h.device
  renewals _ := hev.renewals
  attempts _ := hev.attempts
  between _ := hev.between

/-- A device list touches neither the tokens nor the log. -/
lemma follows (s : Phone) (list : DeviceList) :
    Does (fun _ => True) (Session.follow list) s fun _ t =>
      t.secrets .token = s.secrets .token ∧ t.secrets .refresh = s.secrets .refresh
        ∧ t.log = s.log := by
  have hbears : Bears (fun _ => True) s := ⟨fun _ _ => trivial, fun _ _ => ⟨trivial, trivial, trivial⟩,
    fun _ _ _ _ _ => trivial⟩
  refine (does_follow hbears (.refl s) list).mono fun _ t ht => ?_
  rcases ht with rfl | rfl | ⟨id, name, -, rfl⟩
  · exact ⟨rfl, rfl, rfl⟩
  · simp [Phone.forget, Phone.remove]
  · simp [Phone.put]

lemma Honours.after {ev : List Event} {u t : Phone} (h : Honours D s none ev u)
    (ht : t.secrets .token = u.secrets .token ∧ t.secrets .refresh = u.secrets .refresh
      ∧ t.log = u.log) : Honours D s none ev t where
  log := ht.2.2.trans h.log
  ends hs hnot := h.ends hs (by simpa [Phone.isSignedIn, ht.1, ht.2.1] using hnot)
  refresh := h.refresh.imp_left ht.2.1.trans
  device herr := by cases herr

lemma lawful_devices : Does (fun _ => True) (Session.devices D) s fun r t =>
    ∃ ev, Turn.Lawful D (Refuses D) ⟨s, .devices, r.error?, t⟩ ev := by
  refine (does_authorized_honours fun k v => asks_call k).bind ?_
  rintro r u ⟨ev, hev, hreq⟩
  cases r with
  | failed err => exact Does.ret ⟨ev, hev.lawful hreq⟩
  | ok list => exact (follows u list).bind fun _ t ht => Does.ret ⟨ev, (hev.after ht).lawful hreq⟩

/-- A request without a token, or none: the store stays as it was. -/
lemma lawful_of_same {r : Option ApiError} {ev : List Event} {t : Phone} (hlog : t.log = s.log ++ ev)
    (ht : t.secrets = s.secrets) (hop : ¬ op.Authorized) :
    Turn.Lawful D (Refuses D) ⟨s, op, r, t⟩ ev where
  log := hlog
  ends hs hnot := absurd (by simpa [Phone.isSignedIn, ht] using hs) hnot
  refresh _ := Or.inl (congrFun ht _)
  device _ key _ := congrFun ht key
  renewals h := absurd h hop
  attempts h := absurd h hop
  between h := absurd h hop

lemma lawful_signIn (op : Session.Op) {u : Phone} {ev : List Event} (hu : u.secrets = s.secrets)
    (hlog : u.log = s.log ++ ev) (hop : ¬ op.Authorized) (username password : String) :
    Does (fun _ => True) (Session.signIn D username password) u fun r t =>
      ∃ ev', Turn.Lawful D (Refuses D) ⟨s, op, r.error?, t⟩ ev' := by
  have hlogin : Does (fun _ => True) (login D (trim username) password) u fun _ t =>
      t.secrets = s.secrets ∧ ∃ ev', t.log = s.log ++ ev' := by
    refine (Does.call (Q := fun _ t => t.secrets = s.secrets ∧ ∃ ev', t.log = s.log ++ ev') D
      (fun _ => trivial) fun a => ⟨hu, ev ++ [.sent (.login (trim username) password) none a], ?_⟩).bind
      fun _ _ h => Does.ret h
    rw [Phone.sent, hlog, List.append_assoc]
  refine hlogin.bind ?_
  rintro r v ⟨hv, ev', hlog'⟩
  cases r with
  | failed err => exact Does.ret ⟨ev', lawful_of_same hlog' hv hop⟩
  | ok value =>
      -- a token is stored, whatever becomes of the refresh token
      have hin : ∀ t : Phone, t.secrets .token = some value.accessToken → t.log = v.log →
          Turn.Lawful D (Refuses D) ⟨s, op, none, t⟩ ev' := fun t htoken htlog =>
        ⟨htlog.trans hlog', fun _ hnot => absurd (by simp [Phone.isSignedIn, htoken]) hnot,
          fun h => absurd rfl h, nofun, fun h => absurd h hop, fun h => absurd h hop,
          fun h => absurd h hop⟩
      refine Does.put trivial ?_
      cases value.refreshToken with
      | some r => exact Does.put trivial (Does.ret ⟨ev', hin _ (by simp [Phone.put]) rfl⟩)
      | none =>
          exact Does.remove trivial (Does.ret ⟨ev', hin _ (by simp [Phone.put, Phone.remove]) rfl⟩)

/-- **One operation**, whatever the portal answers. -/
lemma does_lawful (op : Session.Op) : Does (fun _ => True) (op.run D) s fun r t =>
    ∃ ev, Turn.Lawful D (Refuses D) ⟨s, op, r, t⟩ ev := by
  have hwrapped : ∀ {T : Type} {e : Endpoint} {act : String → Code (ApiResult T)},
      (∀ k v, Does (fun _ => True) (act k) v (Asks e k v)) →
      Does (fun _ => True) (ApiResult.error? <$> Session.authorized D act) s fun r t =>
        ∃ ev, Turn.Lawful D (Refuses D) ⟨s, op, r, t⟩ ev := fun hact =>
    Does.map ((does_authorized_honours hact).mono fun _ _ ⟨ev, hev, hreq⟩ => ⟨ev, hev.lawful hreq⟩)
  have hpublic : ∀ {T : Type} {e : Endpoint} {parse : String → Except (Option String) T},
      ¬ op.Authorized → Does (fun _ => True) (ApiResult.error? <$> call D e none parse) s fun r t =>
        ∃ ev, Turn.Lawful D (Refuses D) ⟨s, op, r, t⟩ ev := fun hop =>
    Does.map (Does.call D (fun _ => trivial) fun a => ⟨_, lawful_of_same rfl rfl hop⟩)
  cases op with
  | signIn username password =>
      exact Does.map (lawful_signIn (.signIn username password) rfl (List.append_nil _).symm id
        username password)
  | register username email password =>
      refine Does.map ((Does.call (Q := fun _ t => t.secrets = s.secrets ∧ ∃ ev, t.log = s.log ++ ev)
        D (fun _ => trivial) fun a => ⟨rfl, _, rfl⟩).bind ?_)
      rintro r v ⟨hv, ev, hlog⟩
      cases r with
      | failed err => exact Does.ret ⟨ev, lawful_of_same hlog hv id⟩
      | ok _ => exact lawful_signIn (.register username email password) hv hlog id username password
  | profile => exact hwrapped fun k v => asks_call k
  | devices => exact Does.map lawful_devices
  | deleteDevice deviceId => exact hwrapped fun k v => asks_deleteCall deviceId k
  | addDevice name => exact hwrapped fun k v => asks_addDevice name k
  | startTrial => exact hwrapped fun k v => asks_call k
  | resendVerification => exact hwrapped fun k v => asks_call k
  | trialOffer => exact hpublic id
  | latestRelease => exact hpublic id
  | renameDevice deviceId name => exact hwrapped fun k v => asks_renameCall deviceId name k
  | select d => exact hwrapped fun k v => asks_selectCall d k
  | signOut =>
      refine Does.map ((does_signOut D (fun _ _ => trivial) fun _ _ => trivial).mono ?_)
      rintro _ t ⟨u, rfl, hu⟩
      have hlog : ∃ ev, u.clear.log = s.log ++ ev := by
        rcases hu with rfl | ⟨r, a, rfl⟩
        · exact ⟨_, rfl⟩
        · exact ⟨_, by rw [Phone.clear, Phone.sent, List.append_assoc]⟩
      obtain ⟨ev, hlog⟩ := hlog
      exact ⟨ev, hlog, fun _ _ => Or.inl rfl, fun h => absurd rfl h, nofun, nofun, nofun, nofun⟩

end Operations

/-! ### Sequences of operations -/

/-- Operations one after another, each run to its end. -/
inductive Turns (s₀ : Phone) : List Turn → Phone → Prop where
  | nil : Turns s₀ [] s₀
  | snoc {l : List Turn} {s t : Phone} {op : Session.Op} {r : Option ApiError} :
      Turns s₀ l s → Runs (fun _ _ => True) (op.run D) s (.ok r) t →
      Turns s₀ (l ++ [⟨s, op, r, t⟩]) t

variable {D}

/-- **A session ends only when the portal ends it.** Along every sequence of
operations, with every answer of the portal: the session ends only through
sign-out, a refused refresh token, or a refused access token with no refresh
token stored; no other failure touches the refresh token; an authorization
failure leaves the device's values alone; an authorized operation asks for at
most one new token and makes its call at most twice, the second time with a
token issued in between. -/
theorem session_ends_by_portal {s₀ s : Phone} {l : List Turn} (h : Turns D s₀ l s) :
    ∀ x ∈ l, ∃ ev, x.Lawful D (Refuses D) ev := by
  induction h with
  | nil => simp
  | @snoc l s t op r _ hrun ih =>
      intro x hx
      rcases List.mem_append.mp hx with hx | hx
      · exact ih x hx
      · rw [List.mem_singleton.mp hx]
        exact (does_lawful op).runs hrun

/-! ### A token for another role -/

/-- The library on the two tokens of the run below. -/
def twoRoles : Decoders :=
  { Decoders.unreadable with
    tokenResponse := fun body =>
      if body = "\x7b\"access_token\":\"T1\",\"role\":\"client\",\"refresh_token\":\"R1\"\x7d" then
        .ok ⟨"T1", "client", some "R1"⟩
      else if body = "\x7b\"access_token\":\"T2\",\"role\":\"admin\"\x7d" then
        .ok ⟨"T2", "admin", none⟩
      else .error none }

def replies (code : ℤ) (body : String) : Outside := ⟨.ok ⟨code, body⟩, 0⟩

/-- Signed in with both tokens. -/
def bothTokens : Phone :=
  (playBy (fun _ => replies 200
    "\x7b\"access_token\":\"T1\",\"role\":\"client\",\"refresh_token\":\"R1\"\x7d")
    (Session.Op.run twoRoles (.signIn "paid" "secret")) newPhone).2

/-- The access token is answered with 401, the refresh token with a token for the
operator's role. -/
def operatorReply (s : Phone) : Outside :=
  if s.secrets .token = some "T1" then replies 401 "expired"
  else replies 200 "\x7b\"access_token\":\"T2\",\"role\":\"admin\"\x7d"

/-- The profile is asked for, and the session is over. -/
def signedOff : Phone := (playBy operatorReply (Session.Op.run twoRoles .profile) bothTokens).2

lemma turns_signedOff : Turns twoRoles newPhone
    [⟨newPhone, .signIn "paid" "secret", none, bothTokens⟩,
      ⟨bothTokens, .profile, some .unauthorized, signedOff⟩] signedOff := by
  have hsign := runs_playBy (J := fun _ _ => True) (fun _ => trivial)
    (π := fun _ => replies 200
      "\x7b\"access_token\":\"T1\",\"role\":\"client\",\"refresh_token\":\"R1\"\x7d")
    (Session.Op.run twoRoles (.signIn "paid" "secret")) newPhone
  have hprofile := runs_playBy (J := fun _ _ => True) (π := operatorReply) (fun _ => trivial)
    (Session.Op.run twoRoles .profile) bothTokens
  exact (Turns.nil.snoc hsign).snoc hprofile

/-- **No 401.** The portal answers a refresh with a token for another role; the
client takes it for a refusal and the session ends, although no refresh was
answered with 401. -/
theorem session_ends_without_401 : ¬ ∀ (s₀ s : Phone) (l : List Turn), Turns twoRoles s₀ l s →
    ∀ x ∈ l, ∃ ev, x.Lawful twoRoles Is401 ev := by
  intro hall
  obtain ⟨ev, hev⟩ := hall _ _ _ turns_signedOff ⟨bothTokens, .profile, some .unauthorized, signedOff⟩
    (by simp)
  have hlog : signedOff.log = bothTokens.log ++ [.sent .profile (some "T1") (.ok ⟨401, "expired"⟩),
      .sent (.refresh "R1") none
        (.ok ⟨200, "\x7b\"access_token\":\"T2\",\"role\":\"admin\"\x7d"⟩)] := by
    decide
  obtain rfl : ev = _ := List.append_cancel_left (hev.log.symm.trans hlog)
  rcases hev.ends (by decide) (by decide) with hop | ⟨r, a, hmem, ha⟩ | ⟨-, hnone⟩
  · cases hop
  · simp only [List.mem_cons, Event.sent.injEq, reduceCtorEq, false_and, List.not_mem_nil, or_false,
      false_or] at hmem
    rw [hmem.2.2] at ha
    exact absurd ha (by decide)
  · exact absurd hnone (by decide)

/-- The same run, with the answer counted as the refusal it is taken for. -/
theorem session_ends_by_portal_signedOff :
    (∃ ev, (Turn.mk newPhone (.signIn "paid" "secret") none bothTokens).Lawful twoRoles
        (Refuses twoRoles) ev) ∧
      ∃ ev, (Turn.mk bothTokens .profile (some .unauthorized) signedOff).Lawful twoRoles
        (Refuses twoRoles) ev :=
  ⟨session_ends_by_portal turns_signedOff _ List.mem_cons_self,
    session_ends_by_portal turns_signedOff _ (List.mem_cons_of_mem _ List.mem_cons_self)⟩

end VpnPortal.App
