/-
The bot between customers and the operator (`pwa/api/telegram.py`): a customer's
message goes to the operator's chat, and the operator's reply to it goes back.

Messages come in at any time and are handled side by side. The number that a
message has in its chat is Telegram's. Left out are what the cards say, the
one-time link that may come with `/start`, and the buttons of the cards: they all
answer in the chat that asked.

* `Desk`, `handle`: what the bot keeps, and a message to it;
* `Held`, `Turn`, `follows_handle`: what a message in work still owes, and one step of
  it: no message takes another;
* `Desk.Sound`, `Kept`, `Kept.step`: a row of the table is a forwarded message, a passage
  to the operator is used once, and every step keeps that;
* `Progress`, `Bringing`, `OnItsWay`: a reply on its way while others are in work;
* `relay_sound`: **what goes to another chat** is a customer's text for the operator,
  without a key file, or the operator's reply to that customer, and a reply to a message
  in the table is brought to its chat if Telegram takes it;
* `forwards_limited`: **no chat fills the operator's**: ten messages an hour.
-/
import Mathlib.Data.List.TakeWhile
import VpnPortal.Monitor.Judge
import VpnPortal.Portal.World
import VpnPortal.Sessions.Protocol

namespace VpnPortal.Relay

open Sessions

/-! ### The bot -/

/-- A message to the bot in a private chat. -/
structure Message where
  chat : ℤ
  /-- `text`, or the empty text. -/
  text : String
  /-- The sender's username or first name, or `?`. -/
  name : String := "?"
  /-- `reply_to_message`, and the number of the message that is replied to. -/
  replyTo : Option (Option ℤ) := none
  deriving DecidableEq, Repr

/-- A message let through to the operator: its place in the count, and the time. -/
abbrev Pass := ℕ × ℚ

/-- A message that the bot has sent. -/
structure Post where
  chat : ℤ
  number : ℤ
  text : String
  /-- The message in work when it was sent. -/
  cause : Message
  /-- For the history: how a forwarded message was let through. -/
  pass : Option Pass := none
  deriving DecidableEq

structure Desk where
  posts : List Post := []
  /-- `telegram_support`: the number in the operator's chat, and the customer's chat. -/
  support : List (ℤ × ℤ) := []
  /-- `_support_seen` -/
  seen : ℤ → List ℚ := fun _ => []
  /-- For the history: all that was let through. -/
  passes : ℤ → List Pass := fun _ => []
  /-- The latest reading of `time.monotonic`. -/
  clock : ℚ := 0

/-- What a step meets. -/
structure Input where
  now : ℚ
  /-- The number of a message to this chat, if Telegram takes it. -/
  sent : ℤ → Option ℤ
  /-- Telegram's answer comes back. -/
  told : Bool := true
  /-- The account tied to a chat: its username and plan. -/
  user : ℤ → Option (String × Option String)
  /-- The text of a card. -/
  card : String

/-- **What is possible**: the clock does not go back, and no chat has two messages
with one number. -/
def Possible (d : Desk) (i : Input) : Prop :=
  d.clock ≤ i.now ∧ ∀ p ∈ d.posts, i.sent p.chat ≠ some p.number

abbrev Bot := Proc Desk Input Unit

/-- `telegram.send`: a message that Telegram took is sent, also if its answer is lost. -/
def send (cause : Message) (chat : ℤ) (text : String) (pass : Option Pass) : Bot (Option ℤ) :=
  Proc.exchange fun d i =>
    match i.sent chat with
    | none => (none, d)
    | some number => (if i.told then some number else none,
        { d with posts := d.posts ++ [⟨chat, number, text, cause, pass⟩] })

/-- `_SUPPORT_LIMIT` -/
def supportLimit : ℕ := 10

/-- `_SUPPORT_WINDOW`, in seconds. -/
def supportWindow : ℚ := 3600

/-- `_support_allowed` -/
def Desk.allow (d : Desk) (chat : ℤ) (now : ℚ) : Option Pass × Desk :=
  let q := (d.seen chat).dropWhile (· < now - supportWindow)
  if supportLimit ≤ q.length then
    (none, { d with seen := Function.update d.seen chat q, clock := now })
  else
    let pass := ((d.passes chat).length, now)
    (some pass, { d with
      seen := Function.update d.seen chat (q ++ [now]),
      passes := Function.update d.passes chat (d.passes chat ++ [pass]), clock := now })

/-- A row of `telegram_support`; its number is unique. -/
def Desk.file (d : Desk) (number chat : ℤ) : Bool × Desk :=
  if d.support.any fun r => r.1 = number then (false, d)
  else (true, { d with support := d.support ++ [(number, chat)] })

/-- The text that the operator sees. -/
def ticket (user : Option (String × Option String)) (name text : String) : String :=
  let who := match user with
    | some (username, plan) => username ++ " · " ++ (plan.filter (· ≠ "")).getD "без подписки"
    | none => "не подключён · " ++ name
  "💬 " ++ who ++ "\n\n" ++ String.ofList (text.toList.take 3500)
    ++ "\n\n↩️ Ответьте на это сообщение (Reply)."

/-- `_to_support`: the answer to the customer. -/
def toSupport (admin : Option ℤ) (m : Message) (text : String) : Bot String :=
  match admin with
  | none => pure ("Поддержка в боте пока не подключена. Напишите через личный кабинет "
      ++ "(«Техподдержка») или на sovrn.support@gmail.com.")
  | some admin => do
      match ← Proc.exchange fun d i => d.allow m.chat i.now with
      | none => pure "Слишком много сообщений подряд. Мы уже читаем ваши сообщения — ответим здесь."
      | some pass => do
          let user ← Proc.ask fun i => i.user m.chat
          match ← send m admin (ticket user m.name text) (some pass) with
          | none => pure ("Не получилось передать сообщение. Напишите через личный кабинет "
              ++ "или на sovrn.support@gmail.com.")
          | some number => do
              match ← Proc.exchange fun d _ => d.file number m.chat with
              | false => .raise ()
              | true => pure "Получили, ответим здесь. Обычно — в течение рабочего дня."

/-- What a customer reads of the operator's reply. -/
def answerText (text : String) : String := "💬 Поддержка Sovereign:\n\n" ++ text

/-- `_admin_reply` -/
def adminReply (admin : ℤ) (m : Message) : Bot Unit := do
  match ← Proc.look fun d => d.support.filter fun r => m.replyTo.join = some r.1 with
  | [] => do
      let _ ← send m admin
        "Чтобы ответить клиенту, используйте «Ответить» (Reply) на его сообщение." none
      pure ()
  | [row] => do
      let ok ← send m row.2 (answerText m.text) none
      let _ ← send m admin
        (if ok.isSome then "✓ Отправлено" else "✗ Не доставлено: клиент мог заблокировать бота.") none
      pure ()
  | _ => .raise ()

/-- What the bot does with a message. -/
inductive Route where
  | reply (admin : ℤ)
  | start
  | id
  | card
  | renew
  | blank
  | keyFile
  | support (text : String)
  deriving DecidableEq, Repr

/-- The texts that open a screen. -/
def screens : List String :=
  ["/help", "💬 Поддержка", "/status", "📡 Статус", "/me", "📋 Подписка", "/invite",
    "🎁 Пригласить друга", "/menu"]

/-- The text looks like a connection file: it has the key of a device in it. -/
def isKeyFile (text : String) : Bool := hasText "PrivateKey" text || hasText "[Interface]" text

def route (admin : Option ℤ) (m : Message) : Route :=
  let text := String.ofList (Words.strip m.text.toList)
  match admin.filter fun a => m.chat = a ∧ m.replyTo ≠ none with
  | some a => .reply a
  | none =>
    if "/start".toList <+: text.toList then .start
    else if text = "/id" then .id
    else if screens.any fun s => s = text then .card
    else if text = "💳 Продлить" ∨ text = "/renew" then .renew
    else if "/".toList <+: text.toList then .card
    else if text = "" then .blank
    else if isKeyFile text then .keyFile
    else .support text

/-- `handle`, for a message in a private chat. -/
def handle (admin : Option ℤ) (m : Message) : Bot Unit := do
  match route admin m with
  | .reply admin => adminReply admin m
  | .start => do
      -- `drop_keyboard`
      let _ ← send m m.chat "…" none
      let card ← Proc.ask Input.card
      let _ ← send m m.chat card none
      pure ()
  | .id => do
      let _ ← send m m.chat ("chat id: " ++ toString m.chat) none
      pure ()
  | .card => do
      let card ← Proc.ask Input.card
      let _ ← send m m.chat card none
      pure ()
  | .renew => do
      let _ ← send m m.chat ("Продление и оплата — в личном кабинете. Оставшиеся дни сохранятся, "
        ++ "новый период добавится после них.") none
      pure ()
  | .blank => do
      let _ ← send m m.chat "Пока принимаем только текст. Опишите проблему словами." none
      pure ()
  | .keyFile => do
      let _ ← send m m.chat ("Похоже, это файл подключения — в нём ключ вашего устройства. "
        ++ "Мы его никуда не передали. Не пересылайте его никому; опишите проблему словами.") none
      pure ()
  | .support text => do
      let answer ← toSupport admin m text
      let _ ← send m m.chat answer none
      pure ()

/-! ### What a message in work does -/

/-- What a message in work still owes: it was let through and is not forwarded yet,
it is forwarded under a number and not filed yet, or its row was found. -/
inductive Held where
  | pass (x : Pass)
  | sent (number : ℤ)
  | found (number chat : ℤ)

section Turns

variable (admin : Option ℤ) (m : Message)

/-- The post shows a customer's message to the operator, without a key. -/
def Post.Forwards (p : Post) : Prop :=
  some p.chat = admin ∧ p.pass ≠ none ∧ ∃ user text, p.text = ticket user p.cause.name text ∧
    text = String.ofList (Words.strip p.cause.text.toList) ∧ isKeyFile text = false

/-- The post brings the operator's reply to the customer whose message it replies to. -/
def Post.Answers (posts : List Post) (p : Post) : Prop :=
  some p.cause.chat = admin ∧ p.text = answerText p.cause.text ∧
    ∃ q ∈ posts, q.Forwards admin ∧ q.cause.chat = p.chat ∧ p.cause.replyTo = some (some q.number) ∧
      ∀ q' ∈ posts, q'.chat = q.chat → q'.number = q.number → q' = q

/-- A message goes out. -/
def Desk.post (d : Desk) (p : Post) : Desk := { d with posts := d.posts ++ [p] }

/-- One step of a message in work. -/
inductive Turn : Option Held → Desk → Option Held → Desk → Prop where
  | idle (g : Option Held) (d : Desk) : Turn g d g d
  | own (g : Option Held) (d : Desk) (p : Post) (hcause : p.cause = m) (hchat : p.chat = m.chat)
      (hpass : p.pass = none) (hnew : ∀ q ∈ d.posts, q.chat = p.chat → q.number ≠ p.number) :
      Turn g d g (d.post p)
  | refused (d : Desk) (now : ℚ) (hnow : d.clock ≤ now) (h : (d.allow m.chat now).1 = none) :
      Turn none d none (d.allow m.chat now).2
  | passed (d : Desk) (now : ℚ) (hnow : d.clock ≤ now) (x : Pass)
      (h : (d.allow m.chat now).1 = some x) : Turn none d (some (.pass x)) (d.allow m.chat now).2
  | unsent (d : Desk) (x : Pass) : Turn (some (.pass x)) d none d
  | forwarded (d : Desk) (x : Pass) (p : Post) (hcause : p.cause = m) (hpass : p.pass = some x)
      (hforwards : p.Forwards admin) (hnew : ∀ q ∈ d.posts, q.chat = p.chat → q.number ≠ p.number) :
      Turn (some (.pass x)) d (some (.sent p.number)) (d.post p)
  | unheard (d : Desk) (x : Pass) (p : Post) (hcause : p.cause = m) (hpass : p.pass = some x)
      (hforwards : p.Forwards admin) (hnew : ∀ q ∈ d.posts, q.chat = p.chat → q.number ≠ p.number) :
      Turn (some (.pass x)) d none (d.post p)
  | filed (d : Desk) (number : ℤ) :
      Turn (some (.sent number)) d none (d.file number m.chat).2
  | looked (d : Desk) (number chat : ℤ) (hrow : (number, chat) ∈ d.support) :
      Turn none d (some (.found number chat)) d
  | answered (d : Desk) (number : ℤ) (p : Post) (hcause : p.cause = m) (hadmin : some m.chat = admin)
      (hreply : m.replyTo = some (some number)) (htext : p.text = answerText m.text)
      (hpass : p.pass = none) (hnew : ∀ q ∈ d.posts, q.chat = p.chat → q.number ≠ p.number) :
      Turn (some (.found number p.chat)) d (some (.found number p.chat)) (d.post p)

variable {admin : Option ℤ} {m : Message}

/-! Where the bot takes a message. -/

lemma reply_of_route {a : ℤ} (h : route admin m = .reply a) : admin = some a ∧ m.chat = a := by
  unfold route at h
  dsimp only at h
  split at h
  · rename_i b hb
    obtain rfl := Route.reply.inj h
    obtain ⟨hadmin, hcond⟩ := Option.filter_eq_some_iff.mp hb
    exact ⟨hadmin, (of_decide_eq_true hcond).1⟩
  · repeat' split at h
    all_goals cases h

lemma text_of_route {text : String} (h : route admin m = .support text) :
    text = String.ofList (Words.strip m.text.toList) ∧ isKeyFile text = false := by
  unfold route at h
  dsimp only at h
  split at h
  · cases h
  · repeat' split at h
    all_goals cases h
    rename_i hkey
    exact ⟨rfl, by simpa using hkey⟩

lemma not_sent {d : Desk} {i : Input} (hi : Possible d i) {chat number : ℤ}
    (hsent : i.sent chat = some number) : ∀ q ∈ d.posts, q.chat = chat → q.number ≠ number := by
  rintro q hq rfl rfl
  exact hi.2 q hq hsent

section Follows

variable {α : Type} {C : Option Held → Except Unit α → Prop} {g : Option Held}

lemma follows_own {text : String} {f : Option ℤ → Bot α}
    (hf : ∀ n, Proc.Follows Possible (Turn admin m) C (f n) g) :
    Proc.Follows Possible (Turn admin m) C (send m m.chat text none >>= f) g := by
  refine Proc.Follows.exchange fun d i hi => ?_
  cases hsent : i.sent m.chat with
  | none => exact ⟨g, .idle g d, hf none⟩
  | some number => exact ⟨g, .own g d ⟨m.chat, number, text, m, none⟩ rfl rfl rfl (not_sent hi hsent), hf _⟩

lemma follows_ask {β : Type} {q : Input → β} {f : β → Bot α}
    (hf : ∀ b, Proc.Follows Possible (Turn admin m) C (f b) g) :
    Proc.Follows Possible (Turn admin m) C (Proc.ask q >>= f) g :=
  Proc.Follows.ask (fun d => .idle g d) fun _ _ _ => hf _

end Follows

/-- The passage to the operator. -/
lemma follows_toSupport {text : String}
    (htext : text = String.ofList (Words.strip m.text.toList)) (hkey : isKeyFile text = false) :
    Proc.Follows Possible (Turn admin m) (fun g _ => g = none) (toSupport admin m text) none := by
  unfold toSupport
  cases admin with
  | none => rfl
  | some a =>
    refine Proc.Follows.exchange fun d i hi => ?_
    cases hallow : (d.allow m.chat i.now).1 with
    | none => exact ⟨none, .refused d i.now hi.1 hallow, rfl⟩
    | some x =>
      refine ⟨some (.pass x), .passed d i.now hi.1 x hallow, follows_ask fun user => ?_⟩
      refine Proc.Follows.exchange fun d i hi => ?_
      cases hsent : i.sent a with
      | none => exact ⟨none, .unsent d x, rfl⟩
      | some number =>
        have hforwards : Post.Forwards (some a) ⟨a, number, ticket user m.name text, m, some x⟩ :=
          ⟨rfl, by simp, user, text, rfl, htext, hkey⟩
        cases htold : i.told with
        | false => exact ⟨none, .unheard d x _ rfl rfl hforwards (not_sent hi hsent), rfl⟩
        | true =>
          refine ⟨some (.sent number), .forwarded d x _ rfl rfl hforwards (not_sent hi hsent), ?_⟩
          refine Proc.Follows.exchange fun d i hi => ⟨none, .filed d number, ?_⟩
          cases (d.file number m.chat).1 <;> rfl

/-- The operator's reply. -/
lemma follows_adminReply {a : ℤ} (hadmin : admin = some a) (hchat : m.chat = a) :
    Proc.Follows Possible (Turn admin m) (fun _ _ => True) (adminReply a m) none := by
  subst hchat
  refine Proc.Follows.look fun d => ?_
  cases hrows : d.support.filter fun r => m.replyTo.join = some r.1 with
  | nil => exact ⟨none, .idle none d, follows_own fun _ => trivial⟩
  | cons row rest =>
    cases rest with
    | cons _ _ => exact ⟨none, .idle none d, trivial⟩
    | nil =>
      have hmem : row ∈ d.support.filter fun r => m.replyTo.join = some r.1 := by
        rw [hrows]
        exact List.mem_singleton_self row
      obtain ⟨hrow, hjoin⟩ := List.mem_filter.mp hmem
      have hreply : m.replyTo = some (some row.1) := Option.join_eq_some_iff.mp (of_decide_eq_true hjoin)
      refine ⟨some (.found row.1 row.2), .looked d row.1 row.2 hrow, ?_⟩
      refine Proc.Follows.exchange fun d i hi => ?_
      cases hsent : i.sent row.2 with
      | none => exact ⟨_, .idle _ d, follows_own fun _ => trivial⟩
      | some number =>
        exact ⟨_, .answered d row.1 ⟨row.2, number, answerText m.text, m, none⟩ rfl hadmin.symm hreply rfl
          rfl (not_sent hi hsent), follows_own fun _ => trivial⟩

/-- **Every message takes such steps only.** -/
lemma follows_handle (admin : Option ℤ) (m : Message) :
    Proc.Follows Possible (Turn admin m) (fun _ _ => True) (handle admin m) none := by
  unfold handle
  cases hroute : route admin m with
  | reply a =>
    obtain ⟨hadmin, hchat⟩ := reply_of_route hroute
    exact follows_adminReply hadmin hchat
  | start => exact follows_own fun _ => follows_ask fun _ => follows_own fun _ => trivial
  | id => exact follows_own fun _ => trivial
  | card => exact follows_ask fun _ => follows_own fun _ => trivial
  | renew => exact follows_own fun _ => trivial
  | blank => exact follows_own fun _ => trivial
  | keyFile => exact follows_own fun _ => trivial
  | support text =>
    obtain ⟨htext, hkey⟩ := text_of_route hroute
    refine (follows_toSupport htext hkey).bind (fun g answer hg => ?_) fun _ _ _ => trivial
    subst hg
    exact follows_own fun _ => trivial

end Turns

/-! ### What every step keeps -/

/-- A chat's passages and its queue: the queue forgets what is over an hour old, and
every passage found room. -/
structure Queued (passes : List Pass) (q : List ℚ) (clock : ℚ) : Prop where
  numbered : passes.map Prod.fst = List.range passes.length
  past : ∀ x ∈ passes, x.2 ≤ clock
  tail : ∃ old, passes.map Prod.snd = old ++ q ∧ ∀ t ∈ old, t < clock - supportWindow
  room : ∀ before x after, passes = before ++ x :: after →
    (before.filter fun y => x.2 - supportWindow ≤ y.2).length < supportLimit

/-- What holds of the desk. -/
structure Desk.Sound (admin : Option ℤ) (d : Desk) : Prop where
  numbers : ∀ p ∈ d.posts, ∀ q ∈ d.posts, p.chat = q.chat → p.number = q.number → p = q
  posts : ∀ p ∈ d.posts, p.chat = p.cause.chat ∨ p.Forwards admin ∨ p.Answers admin d.posts
  numbered : (d.support.map Prod.fst).Nodup
  rows : ∀ r ∈ d.support, ∃ q ∈ d.posts, q.Forwards admin ∧ q.number = r.1 ∧ q.cause.chat = r.2
  passed : ∀ p ∈ d.posts, ∀ x ∈ p.pass, x ∈ d.passes p.cause.chat
  once : (d.posts.filterMap fun p => p.pass.map fun x => (p.cause.chat, x)).Nodup
  queues : ∀ c, Queued (d.passes c) (d.seen c) d.clock

/-- What a message owes is there: its passage is not used yet, the forwarded message
was sent, the row is in the table. -/
def Held.Backed (admin : Option ℤ) (d : Desk) (m : Message) : Held → Prop
  | .pass x => x ∈ d.passes m.chat ∧ ∀ p ∈ d.posts, p.cause.chat = m.chat → p.pass ≠ some x
  | .sent number => ∃ q ∈ d.posts, q.Forwards admin ∧ q.number = number ∧ q.cause.chat = m.chat
  | .found number chat => (number, chat) ∈ d.support

/-- What holds of the desk and of all messages in work: no two have one passage. -/
structure Kept {κ : Type} (admin : Option ℤ) (msgs : κ → Message) (d : Desk) (γ : κ → Option Held) :
    Prop where
  sound : d.Sound admin
  backed : ∀ k g, γ k = some g → g.Backed admin d (msgs k)
  apart : ∀ k l x, l ≠ k → (msgs l).chat = (msgs k).chat → γ k = some (.pass x) →
    γ l ≠ some (.pass x)

section Queues

variable {passes : List Pass} {q : List ℚ} {clock now : ℚ}

/-- The queue without its old front. -/
lemma Queued.drop (h : Queued passes q clock) (hnow : clock ≤ now) :
    Queued passes (q.dropWhile (· < now - supportWindow)) now where
  numbered := h.numbered
  past x hx := (h.past x hx).trans hnow
  tail := by
    obtain ⟨old, hsplit, hold⟩ := h.tail
    refine ⟨old ++ q.takeWhile (· < now - supportWindow), ?_, fun t ht => ?_⟩
    · rw [hsplit, List.append_assoc, List.takeWhile_append_dropWhile]
    · rcases List.mem_append.mp ht with ht | ht
      · exact (hold t ht).trans_le (sub_le_sub_right hnow _)
      · have hshort := List.mem_takeWhile_imp ht
        exact of_decide_eq_true hshort
  room := h.room

/-- One more passage, if the queue has room. -/
lemma Queued.push (h : Queued passes q now) (hroom : q.length < supportLimit) :
    Queued (passes ++ [(passes.length, now)]) (q ++ [now]) now where
  numbered := by
    rw [List.map_append, h.numbered, List.length_append, List.length_singleton, List.range_succ]
    rfl
  past x hx := by
    rcases List.mem_append.mp hx with hx | hx
    · exact h.past x hx
    · rw [List.mem_singleton.mp hx]
  tail := by
    obtain ⟨old, hsplit, hold⟩ := h.tail
    exact ⟨old, by rw [List.map_append, hsplit, List.append_assoc]; rfl, hold⟩
  room before x after heq := by
    rcases List.eq_nil_or_concat after with rfl | ⟨after, last, rfl⟩
    · obtain ⟨rfl, hx⟩ := List.append_inj' heq rfl
      obtain rfl := List.singleton_inj.mp hx
      -- what the queue has forgotten is out of the window
      obtain ⟨old, hsplit, hold⟩ := h.tail
      refine lt_of_le_of_lt ?_ hroom
      have hcount : (passes.filter fun y => now - supportWindow ≤ y.2).length =
          ((passes.map Prod.snd).filter fun t => now - supportWindow ≤ t).length := by
        rw [List.filter_map, List.length_map]
        rfl
      have hgone : old.filter (fun t => now - supportWindow ≤ t) = [] :=
        List.filter_eq_nil_iff.mpr fun t ht => by simpa only [decide_eq_true_eq, not_le] using hold t ht
      rw [hcount, hsplit, List.filter_append, hgone, List.nil_append]
      exact List.length_filter_le _ _
    · have hsplit : passes ++ [(passes.length, now)] = (before ++ x :: after) ++ [last] := by
        simpa using heq
      exact h.room before x after (List.append_inj' hsplit rfl).1

/-- **An hour has at most ten passages.** -/
lemma Queued.window (h : Queued passes q clock) (a : ℚ) :
    (passes.filter fun x => a ≤ x.2 ∧ x.2 ≤ a + supportWindow).length ≤ supportLimit := by
  have hroom := h.room
  clear h
  induction passes using List.reverseRecOn with
  | nil => exact Nat.zero_le _
  | append_singleton passes x ih =>
    rw [List.filter_append, List.length_append]
    by_cases hx : a ≤ x.2 ∧ x.2 ≤ a + supportWindow
    · have hlast := hroom passes x [] rfl
      have hfewer : (passes.filter fun y => a ≤ y.2 ∧ y.2 ≤ a + supportWindow).length ≤
          (passes.filter fun y => x.2 - supportWindow ≤ y.2).length := by
        refine (List.monotone_filter_right _ fun y hy => ?_).length_le
        have hy' := of_decide_eq_true hy
        exact decide_eq_true (by linarith [hx.2, hy'.1])
      have hone : ([x].filter fun x => a ≤ x.2 ∧ x.2 ≤ a + supportWindow).length ≤ 1 :=
        List.length_filter_le _ _
      omega
    · rw [List.filter_cons_of_neg (by simpa only [decide_eq_true_eq] using hx), List.filter_nil,
        List.length_nil, Nat.add_zero]
      refine ih fun before y after heq => hroom before y (after ++ [x]) ?_
      rw [heq, List.append_assoc, List.cons_append]

end Queues

/-! ### Every step -/

section Steps

variable {κ : Type} [DecidableEq κ] {admin : Option ℤ} {msgs : κ → Message} {d : Desk}
variable {γ : κ → Option Held}

lemma Post.Answers.post {posts : List Post} {p p' : Post} (h : p.Answers admin posts)
    (hnew : ∀ q ∈ posts, q.chat = p'.chat → q.number ≠ p'.number) :
    p.Answers admin (posts ++ [p']) := by
  obtain ⟨hadmin, htext, q, hq, hforwards, hchat, hreply, hone⟩ := h
  refine ⟨hadmin, htext, q, List.mem_append_left _ hq, hforwards, hchat, hreply, fun q' hq' hc hn => ?_⟩
  rcases List.mem_append.mp hq' with hq' | hq'
  · exact hone q' hq' hc hn
  · obtain rfl := List.mem_singleton.mp hq'
    exact absurd hn.symm (hnew q hq hc.symm)

/-- One more message. -/
lemma Desk.Sound.post (h : d.Sound admin) {p : Post}
    (hnew : ∀ q ∈ d.posts, q.chat = p.chat → q.number ≠ p.number)
    (hkind : p.chat = p.cause.chat ∨ p.Forwards admin ∨ p.Answers admin d.posts)
    (hpass : ∀ x ∈ p.pass, x ∈ d.passes p.cause.chat ∧
      ∀ q ∈ d.posts, q.cause.chat = p.cause.chat → q.pass ≠ some x) : (d.post p).Sound admin where
  numbers a ha b hb hchat hnumber := by
    rcases List.mem_append.mp ha with ha' | ha' <;> rcases List.mem_append.mp hb with hb' | hb'
    · exact h.numbers a ha' b hb' hchat hnumber
    · rw [List.mem_singleton.mp hb'] at hchat hnumber
      exact absurd hnumber (hnew a ha' hchat)
    · rw [List.mem_singleton.mp ha'] at hchat hnumber
      exact absurd hnumber.symm (hnew b hb' hchat.symm)
    · rw [List.mem_singleton.mp ha', List.mem_singleton.mp hb']
  posts a ha := by
    rcases List.mem_append.mp ha with ha | ha
    · exact (h.posts a ha).imp_right (Or.imp_right fun hans => hans.post hnew)
    · rw [List.mem_singleton.mp ha]
      exact hkind.imp_right (Or.imp_right fun hans => hans.post hnew)
  numbered := h.numbered
  rows r hr := by
    obtain ⟨q, hq, hrest⟩ := h.rows r hr
    exact ⟨q, List.mem_append_left _ hq, hrest⟩
  passed a ha x hx := by
    rcases List.mem_append.mp ha with ha | ha
    · exact h.passed a ha x hx
    · rw [List.mem_singleton.mp ha] at hx ⊢
      exact (hpass x hx).1
  once := by
    rw [Desk.post, List.filterMap_append]
    cases hp : p.pass with
    | none => simpa [hp] using h.once
    | some x =>
      have hlast : [p].filterMap (fun p => p.pass.map fun x => (p.cause.chat, x)) =
          [(p.cause.chat, x)] := by simp [hp]
      rw [hlast, List.nodup_append]
      refine ⟨h.once, List.nodup_singleton _, fun y hy z hz => ?_⟩
      rw [List.mem_singleton.mp hz]
      rintro rfl
      obtain ⟨q, hq, hmap⟩ := List.mem_filterMap.mp hy
      obtain ⟨x', hx', heq⟩ := Option.map_eq_some_iff.mp hmap
      obtain ⟨hchat, rfl⟩ := Prod.mk.inj heq
      exact (hpass x' hp).2 q hq hchat hx'
  queues := h.queues

omit [DecidableEq κ] in
/-- One more message; a passage that it uses is nobody's. -/
lemma Kept.posted (h : Kept admin msgs d γ) {p : Post}
    (hnew : ∀ q ∈ d.posts, q.chat = p.chat → q.number ≠ p.number)
    (hkind : p.chat = p.cause.chat ∨ p.Forwards admin ∨ p.Answers admin d.posts)
    (hpass : ∀ x ∈ p.pass, x ∈ d.passes p.cause.chat ∧
      (∀ q ∈ d.posts, q.cause.chat = p.cause.chat → q.pass ≠ some x) ∧
      ∀ k, (msgs k).chat = p.cause.chat → γ k ≠ some (.pass x)) : Kept admin msgs (d.post p) γ where
  sound := h.sound.post hnew hkind fun x hx => ⟨(hpass x hx).1, (hpass x hx).2.1⟩
  backed k g hk := by
    have hbacked := h.backed k g hk
    cases g with
    | pass x =>
      refine ⟨hbacked.1, fun q hq hchat => ?_⟩
      rcases List.mem_append.mp hq with hq | hq
      · exact hbacked.2 q hq hchat
      · obtain rfl := List.mem_singleton.mp hq
        exact fun hx => (hpass x hx).2.2 k hchat.symm hk
    | sent number =>
      obtain ⟨q, hq, hrest⟩ := hbacked
      exact ⟨q, List.mem_append_left _ hq, hrest⟩
    | found number chat => exact hbacked
  apart := h.apart

/-- A message that owes nothing any more. -/
lemma Kept.settled (h : Kept admin msgs d γ) (k : κ) : Kept admin msgs d (Function.update γ k none) := by
  have hold : ∀ l g, Function.update γ k none l = some g → γ l = some g := by
    intro l g hl
    by_cases hlk : l = k
    · subst hlk
      rw [Function.update_self] at hl
      cases hl
    · rwa [Function.update_of_ne hlk] at hl
  exact ⟨h.sound, fun l g hl => h.backed l g (hold l g hl), fun l l' x hne hchat hl hl' =>
    h.apart l l' x hne hchat (hold _ _ hl) (hold _ _ hl')⟩

/-- A message that owes something; a passage is nobody else's. -/
lemma Kept.owes (h : Kept admin msgs d γ) {k : κ} {g : Held} (hg : g.Backed admin d (msgs k))
    (hapart : ∀ x, g = .pass x → ∀ l, l ≠ k → (msgs l).chat = (msgs k).chat → γ l ≠ some (.pass x)) :
    Kept admin msgs d (Function.update γ k (some g)) where
  sound := h.sound
  backed l g' hl := by
    by_cases hlk : l = k
    · subst hlk
      rw [Function.update_self] at hl
      obtain rfl := Option.some.inj hl
      exact hg
    · rw [Function.update_of_ne hlk] at hl
      exact h.backed l g' hl
  apart l l' x hne hchat hl hl' := by
    by_cases hlk : l = k
    · subst hlk
      rw [Function.update_self] at hl
      rw [Function.update_of_ne hne] at hl'
      exact hapart x (Option.some.inj hl) l' hne hchat hl'
    · rw [Function.update_of_ne hlk] at hl
      by_cases hlk' : l' = k
      · subst hlk'
        rw [Function.update_self] at hl'
        exact hapart x (Option.some.inj hl') l hlk hchat.symm hl
      · rw [Function.update_of_ne hlk'] at hl'
        exact h.apart l l' x hne hchat hl hl'

/-- A message is forwarded. -/
lemma Kept.forwarded (h : Kept admin msgs d γ) {k : κ} {x : Pass} (hk : γ k = some (.pass x)) {p : Post}
    (hcause : p.cause = msgs k) (hpass : p.pass = some x) (hforwards : p.Forwards admin)
    (hnew : ∀ q ∈ d.posts, q.chat = p.chat → q.number ≠ p.number) :
    Kept admin msgs (d.post p) (Function.update γ k (some (.sent p.number))) := by
  obtain ⟨hmem, hunused⟩ := h.backed k _ hk
  have hposted : Kept admin msgs (d.post p) (Function.update γ k none) := by
    refine (h.settled k).posted hnew (.inr (.inl hforwards)) fun y hy => ?_
    obtain rfl := Option.some.inj (hpass.symm.trans hy)
    rw [hcause]
    refine ⟨hmem, hunused, fun l hchat hl => ?_⟩
    by_cases hlk : l = k
    · subst hlk
      rw [Function.update_self] at hl
      cases hl
    · rw [Function.update_of_ne hlk] at hl
      exact h.apart k l x hlk hchat hk hl
  have hsent := hposted.owes (k := k) (g := .sent p.number)
    ⟨p, List.mem_append_right _ (List.mem_singleton_self p), hforwards, rfl, congrArg Message.chat hcause⟩
    fun y hy => by cases hy
  rwa [Function.update_idem] at hsent

lemma Desk.allow_posts (d : Desk) (chat : ℤ) (now : ℚ) :
    (d.allow chat now).2.posts = d.posts ∧ (d.allow chat now).2.support = d.support := by
  unfold Desk.allow
  dsimp only
  split <;> exact ⟨rfl, rfl⟩

/-- What a look at the queue gives: a passage, or none. -/
lemma Desk.allow_cases (d : Desk) (chat : ℤ) (now : ℚ) :
    ((d.allow chat now).1 = none ∧ (d.allow chat now).2.passes = d.passes) ∨
      ((d.allow chat now).1 = some ((d.passes chat).length, now) ∧ (d.allow chat now).2.passes =
        Function.update d.passes chat (d.passes chat ++ [((d.passes chat).length, now)])) := by
  unfold Desk.allow
  dsimp only
  split
  · exact .inl ⟨rfl, rfl⟩
  · exact .inr ⟨rfl, rfl⟩

lemma Desk.allow_queues (d : Desk) (h : ∀ c, Queued (d.passes c) (d.seen c) d.clock) {now : ℚ}
    (hnow : d.clock ≤ now) (chat : ℤ) : ∀ c, Queued ((d.allow chat now).2.passes c)
      ((d.allow chat now).2.seen c) (d.allow chat now).2.clock := by
  have hlater : ∀ c, Queued (d.passes c) (d.seen c) now := fun c =>
    ⟨(h c).numbered, fun x hx => ((h c).past x hx).trans hnow, by
      obtain ⟨old, hsplit, hold⟩ := (h c).tail
      exact ⟨old, hsplit, fun t ht => (hold t ht).trans_le (sub_le_sub_right hnow _)⟩, (h c).room⟩
  have hdrop := (h chat).drop hnow
  intro c
  unfold Desk.allow
  dsimp only
  split
  · dsimp only
    by_cases hc : c = chat
    · subst hc
      rw [Function.update_self]
      exact hdrop
    · rw [Function.update_of_ne hc]
      exact hlater c
  · rename_i hroom
    dsimp only
    by_cases hc : c = chat
    · subst hc
      rw [Function.update_self, Function.update_self]
      exact hdrop.push (not_le.mp hroom)
    · rw [Function.update_of_ne hc, Function.update_of_ne hc]
      exact hlater c

lemma mem_passes_allow {chat c : ℤ} {now : ℚ} {x : Pass} (hx : x ∈ d.passes c) :
    x ∈ (d.allow chat now).2.passes c := by
  rcases d.allow_cases chat now with ⟨-, hpasses⟩ | ⟨-, hpasses⟩
  · rw [hpasses]
    exact hx
  · rw [hpasses]
    by_cases hc : c = chat
    · subst hc
      rw [Function.update_self]
      exact List.mem_append_left _ hx
    · rw [Function.update_of_ne hc]
      exact hx

omit [DecidableEq κ] in
/-- A look at the queue. -/
lemma Kept.looked (h : Kept admin msgs d γ) {now : ℚ} (hnow : d.clock ≤ now) (chat : ℤ) :
    Kept admin msgs (d.allow chat now).2 γ := by
  obtain ⟨hposts, hsupport⟩ := d.allow_posts chat now
  have hs := h.sound
  refine ⟨⟨?_, ?_, hsupport ▸ hs.numbered, ?_, fun p hp x hx => ?_, ?_, d.allow_queues hs.queues hnow chat⟩, fun k g hk => ?_,
    h.apart⟩
  · rw [hposts]
    exact hs.numbers
  · rw [hposts]
    exact hs.posts
  · rw [hposts, hsupport]
    exact hs.rows
  · rw [hposts] at hp
    exact mem_passes_allow (hs.passed p hp x hx)
  · rw [hposts]
    exact hs.once
  · have hbacked := h.backed k g hk
    cases g with
    | pass x => exact ⟨mem_passes_allow hbacked.1, hposts ▸ hbacked.2⟩
    | sent number =>
      obtain ⟨q, hq, hrest⟩ := hbacked
      exact ⟨q, hposts ▸ hq, hrest⟩
    | found number chat' =>
      rw [Held.Backed, hsupport]
      exact hbacked

/-- A message is let through. -/
lemma Kept.passed (h : Kept admin msgs d γ) {k : κ} {now : ℚ} (hnow : d.clock ≤ now) {x : Pass}
    (hpass : (d.allow (msgs k).chat now).1 = some x) :
    Kept admin msgs (d.allow (msgs k).chat now).2 (Function.update γ k (some (.pass x))) := by
  obtain ⟨hposts, -⟩ := d.allow_posts (msgs k).chat now
  rcases d.allow_cases (msgs k).chat now with ⟨hnone, -⟩ | ⟨hsome, hpasses⟩
  · rw [hnone] at hpass
    cases hpass
  obtain rfl := Option.some.inj (hsome.symm.trans hpass)
  -- the number of the passage is new
  have hfresh : ((d.passes (msgs k).chat).length, now) ∉ d.passes (msgs k).chat := by
    intro hmem
    have hnumber := List.mem_map_of_mem (f := Prod.fst) hmem
    rw [(h.sound.queues _).numbered, List.mem_range] at hnumber
    exact lt_irrefl _ hnumber
  refine (h.looked hnow (msgs k).chat).owes ⟨?_, fun p hp hchat heq => ?_⟩ fun y hy l _ hchat hl => ?_
  · rw [hpasses, Function.update_self]
    exact List.mem_append_right _ (List.mem_singleton_self _)
  · rw [hposts] at hp
    have hmem := h.sound.passed p hp _ heq
    rw [hchat] at hmem
    exact hfresh hmem
  · obtain rfl := Held.pass.inj hy
    have hmem := (h.backed l _ hl).1
    rw [hchat] at hmem
    exact hfresh hmem

omit [DecidableEq κ] in
/-- A row is filed. -/
lemma Kept.filed (h : Kept admin msgs d γ) {k : κ} {n : ℤ} (hk : γ k = some (.sent n)) :
    Kept admin msgs (d.file n (msgs k).chat).2 γ := by
  unfold Desk.file
  split
  · exact h
  · rename_i hnone
    obtain ⟨q, hq, hforwards, hnumber, hchat⟩ := h.backed k _ hk
    have hs := h.sound
    have hnew : n ∉ d.support.map Prod.fst := by
      intro hmem
      obtain ⟨r, hr, hrn⟩ := List.mem_map.mp hmem
      exact hnone (List.any_eq_true.mpr ⟨r, hr, decide_eq_true hrn⟩)
    have hnumbered : ((d.support ++ [(n, (msgs k).chat)]).map Prod.fst).Nodup := by
      rw [List.map_append, List.nodup_append]
      refine ⟨hs.numbered, List.nodup_singleton _, fun a ha b hb heq => ?_⟩
      rw [heq, List.mem_singleton.mp hb] at ha
      exact hnew ha
    refine ⟨⟨hs.numbers, hs.posts, hnumbered, fun r hr => ?_, hs.passed, hs.once, hs.queues⟩,
      fun l g hl => ?_, h.apart⟩
    · rcases List.mem_append.mp hr with hr | hr
      · exact hs.rows r hr
      · rw [List.mem_singleton.mp hr]
        exact ⟨q, hq, hforwards, hnumber, hchat⟩
    · have hbacked := h.backed l g hl
      cases g with
      | pass x => exact hbacked
      | sent number => exact hbacked
      | found number chat => exact List.mem_append_left _ hbacked

/-- **What every step keeps.** -/
lemma Kept.step (h : Kept admin msgs d γ) {k : κ} {g' : Option Held} {d' : Desk}
    (hturn : Turn admin (msgs k) (γ k) d g' d') : Kept admin msgs d' (Function.update γ k g') := by
  have hsame : ∀ g, γ k = g → Function.update γ k g = γ := fun g hg => by
    rw [← hg, Function.update_eq_self]
  generalize hk : γ k = g at hturn
  cases hturn with
  | idle =>
    rw [hsame _ hk]
    exact h
  | own _ _ p hcause hchat hpass hnew =>
    rw [hsame _ hk]
    exact h.posted hnew (.inl (by rw [hchat, hcause])) fun x hx => by
      rw [hpass] at hx
      cases hx
  | refused _ now hnow hnone => exact (h.looked hnow _).settled k
  | passed _ now hnow x hpass => exact h.passed hnow hpass
  | unsent _ x => exact h.settled k
  | forwarded _ x p hcause hpass hforwards hnew => exact h.forwarded hk hcause hpass hforwards hnew
  | unheard _ x p hcause hpass hforwards hnew =>
    have hsettled := (h.forwarded hk hcause hpass hforwards hnew).settled k
    rwa [Function.update_idem] at hsettled
  | filed _ number => exact (h.filed hk).settled k
  | looked _ number chat hrow => exact h.owes hrow fun x hx => by cases hx
  | answered _ number p hcause hadmin hreply htext hpass hnew =>
    rw [hsame _ hk]
    obtain ⟨q, hq, hforwards, hnumber, hchat⟩ := h.sound.rows _ (h.backed k _ hk)
    have hanswers : p.Answers admin d.posts := by
      refine ⟨by rw [hcause]; exact hadmin, by rw [hcause]; exact htext, q, hq, hforwards, hchat, ?_,
        fun q' hq' hc hn => h.sound.numbers q' hq' q hq hc hn⟩
      rw [hcause, hnumber]
      exact hreply
    refine h.posted hnew (.inr (.inr hanswers)) fun x hx => ?_
    rw [hpass] at hx
    cases hx

end Steps

/-! ### A reply -/

section Reply

variable {admin : Option ℤ} {m : Message} {number chat : ℤ}

/-- What a step of any message leaves in place. -/
structure Desk.Grows (d d' : Desk) : Prop where
  posts : ∀ p ∈ d.posts, p ∈ d'.posts
  support : ∀ r ∈ d.support, r ∈ d'.support
  numbered : (d.support.map Prod.fst).Nodup → (d'.support.map Prod.fst).Nodup

lemma Desk.Grows.refl (d : Desk) : d.Grows d := ⟨fun _ => id, fun _ => id, id⟩

lemma Desk.grows_post (d : Desk) (p : Post) : d.Grows (d.post p) :=
  ⟨fun _ => List.mem_append_left _, fun _ => id, id⟩

lemma Desk.grows_allow (d : Desk) (chat : ℤ) (now : ℚ) : d.Grows (d.allow chat now).2 := by
  obtain ⟨hposts, hsupport⟩ := d.allow_posts chat now
  exact ⟨fun _ => hposts ▸ id, fun _ => hsupport ▸ id, hsupport ▸ id⟩

lemma Desk.grows_file (d : Desk) (number chat : ℤ) : d.Grows (d.file number chat).2 := by
  unfold Desk.file
  split
  · exact .refl d
  · rename_i hnone
    refine ⟨fun _ => id, fun _ => List.mem_append_left _, fun hnodup => ?_⟩
    rw [List.map_append, List.nodup_append]
    refine ⟨hnodup, List.nodup_singleton _, fun a ha b hb heq => ?_⟩
    rw [heq, List.mem_singleton.mp hb] at ha
    obtain ⟨r, hr, hrn⟩ := List.mem_map.mp ha
    exact hnone (List.any_eq_true.mpr ⟨r, hr, decide_eq_true hrn⟩)

lemma Turn.grows {g g' : Option Held} {d d' : Desk} (h : Turn admin m g d g' d') : d.Grows d' := by
  cases h with
  | idle => exact .refl d
  | own => exact d.grows_post _
  | refused => exact d.grows_allow _ _
  | passed => exact d.grows_allow _ _
  | unsent => exact .refl d
  | forwarded => exact d.grows_post _
  | unheard => exact d.grows_post _
  | filed => exact d.grows_file _ _
  | looked => exact .refl d
  | answered => exact d.grows_post _

/-- How far a reply is. -/
inductive Progress where
  | unread
  | missed
  | found
  | brought

/-- One step of a reply to the message `number` of the customer in `chat`: the row is
looked for, and if it is there the text is sent to this chat. -/
inductive Bringing (m : Message) (number chat : ℤ) : Progress → Desk → Progress → Desk → Prop where
  | missed (d : Desk) (h : (d.support.filter fun r => m.replyTo.join = some r.1) ≠ [(number, chat)]) :
      Bringing m number chat .unread d .missed d
  | found (d : Desk) : Bringing m number chat .unread d .found d
  | brought (d : Desk) (p : Post) (hcause : p.cause = m) (hchat : p.chat = chat)
      (htext : p.text = answerText m.text) (hnew : p ∉ d.posts) :
      Bringing m number chat .found d .brought (d.post p)
  | later (g : Progress) (d d' : Desk) (hgrows : d.Grows d') : Bringing m number chat g d g d'

/-- Telegram takes what is sent to the chat. -/
def Takes (chat : ℤ) (d : Desk) (i : Input) : Prop := Possible d i ∧ i.sent chat ≠ none

lemma follows_notice {α : Type} {C : Progress → Except Unit α → Prop} {g : Progress} {dest : ℤ}
    {text : String} {f : Option ℤ → Bot α}
    (hf : ∀ n, Proc.Follows (Takes chat) (Bringing m number chat) C (f n) g) :
    Proc.Follows (Takes chat) (Bringing m number chat) C (send m dest text none >>= f) g := by
  refine Proc.Follows.exchange fun d i hi => ?_
  cases i.sent dest with
  | none => exact ⟨g, .later g d d (.refl d), hf none⟩
  | some n => exact ⟨g, .later g d _ (d.grows_post ⟨dest, n, text, m, none⟩), hf _⟩

/-- **A reply takes such steps only**, and has brought the text at its end if it found
the row. -/
lemma follows_reply {a : ℤ} (hadmin : admin = some a) (hchat : m.chat = a)
    (hreply : m.replyTo = some (some number)) :
    Proc.Follows (Takes chat) (Bringing m number chat)
      (fun g r => g = .missed ∨ (g = .brought ∧ r = .ok ())) (handle admin m) .unread := by
  have hroute : route admin m = .reply a := by
    unfold route
    rw [hadmin, Option.filter_some_pos (by simp [hchat, hreply])]
  rw [handle, hroute]
  refine Proc.Follows.look fun d => ?_
  by_cases hrow : (d.support.filter fun r => m.replyTo.join = some r.1) = [(number, chat)]
  · refine ⟨.found, .found d, ?_⟩
    rw [hrow]
    refine Proc.Follows.exchange fun d i hi => ?_
    cases hsent : i.sent chat with
    | none => exact absurd hsent hi.2
    | some n =>
      have hnew : (⟨chat, n, answerText m.text, m, none⟩ : Post) ∉ d.posts := fun hmem =>
        not_sent hi.1 hsent _ hmem rfl rfl
      exact ⟨.brought, .brought d _ rfl rfl rfl hnew, follows_notice fun _ => .inr ⟨rfl, rfl⟩⟩
  · refine ⟨.missed, .missed d hrow, ?_⟩
    cases d.support.filter fun r => m.replyTo.join = some r.1 with
    | nil => exact follows_notice fun _ => .inl rfl
    | cons _ rest =>
      cases rest with
      | nil => exact follows_notice fun _ => follows_notice fun _ => .inl rfl
      | cons _ _ => exact Or.inl rfl

/-- The row of a message that is in the table is found. -/
lemma row_found {d : Desk} (hnumbered : (d.support.map Prod.fst).Nodup)
    (hrow : (number, chat) ∈ d.support) (hreply : m.replyTo = some (some number)) :
    (d.support.filter fun r => m.replyTo.join = some r.1) = [(number, chat)] := by
  refine List.perm_singleton.mp ((List.perm_ext_iff_of_nodup ((hnumbered.of_map _).filter _)
    (List.nodup_singleton _)).mpr fun r => ?_)
  rw [List.mem_filter, List.mem_singleton, hreply, Option.join_some, decide_eq_true_eq,
    Option.some_inj]
  constructor
  · rintro ⟨hr, hnumber⟩
    exact (List.inj_on_of_nodup_map hnumbered hrow hr hnumber).symm
  · rintro rfl
    exact ⟨hrow, rfl⟩

/-- A reply is on its way: the row is there, and the text is sent once it is brought. -/
structure OnItsWay (m : Message) (number chat : ℤ) (old : List Post) (d : Desk) (g : Progress) :
    Prop where
  numbered : (d.support.map Prod.fst).Nodup
  row : (number, chat) ∈ d.support
  kept : ∀ p ∈ old, p ∈ d.posts
  notMissed : g ≠ .missed
  brought : g = .brought → ∃ p ∈ d.posts, p ∉ old ∧ p.cause = m ∧ p.chat = chat ∧
    p.text = answerText m.text

variable {old : List Post} {d d' : Desk} {g g' : Progress}

lemma OnItsWay.grows (h : OnItsWay m number chat old d g) (hgrows : d.Grows d') :
    OnItsWay m number chat old d' g where
  numbered := hgrows.numbered h.numbered
  row := hgrows.support _ h.row
  kept p hp := hgrows.posts p (h.kept p hp)
  notMissed := h.notMissed
  brought hg := by
    obtain ⟨p, hp, hrest⟩ := h.brought hg
    exact ⟨p, hgrows.posts p hp, hrest⟩

/-- **A step of the reply.** -/
lemma OnItsWay.step (h : OnItsWay m number chat old d g) (hreply : m.replyTo = some (some number))
    (hstep : Bringing m number chat g d g' d') : OnItsWay m number chat old d' g' := by
  cases hstep with
  | missed _ hno => exact absurd (row_found h.numbered h.row hreply) hno
  | found _ => exact ⟨h.numbered, h.row, h.kept, by simp, fun hg => by cases hg⟩
  | brought _ p hcause hchat htext hnew =>
    have hposted := h.grows (d.grows_post p)
    exact ⟨hposted.numbered, hposted.row, hposted.kept, by simp, fun _ =>
      ⟨p, by simp [Desk.post], fun hmem => hnew (h.kept p hmem), hcause, hchat, htext⟩⟩
  | later _ _ _ hgrows => exact h.grows hgrows

end Reply

/-! ### Every run -/

section Runs

variable {κ : Type} [DecidableEq κ] {admin : Option ℤ} {msgs : κ → Message}
variable {sched : List (κ × Input)}

/-- All messages, at the beginning. -/
def inbox (admin : Option ℤ) (msgs : κ → Message) : Cfg κ Desk Input Unit Unit :=
  ⟨{}, fun k => handle admin (msgs k)⟩

/-- What every run keeps, and what the messages in work still do. -/
lemma kept_run (h : Admitted (fun _ => Possible) (inbox admin msgs) sched) :
    ∃ γ : κ → Option Held, Kept admin msgs ((inbox admin msgs).run sched).state γ ∧
      ∀ k, Proc.Follows Possible (Turn admin (msgs k)) (fun _ _ => True)
        (((inbox admin msgs).run sched).pool k) (γ k) := by
  have hempty : Kept admin msgs {} fun _ : κ => none := by
    refine ⟨⟨?_, ?_, List.nodup_nil, ?_, ?_, List.nodup_nil, fun c => ⟨rfl, ?_, ⟨[], rfl, ?_⟩, ?_⟩⟩, ?_, ?_⟩ <;> simp
  obtain ⟨γ, hkept, hpool⟩ := exists_accounts hempty (fun k => follows_handle admin (msgs k))
    (fun d γ k g' d' hkept hturn => hkept.step hturn) h
  exact ⟨γ, hkept, fun k => (hpool k).1⟩

lemma desk_sound (h : Admitted (fun _ => Possible) (inbox admin msgs) sched) :
    ((inbox admin msgs).run sched).state.Sound admin := by
  obtain ⟨γ, hkept, -⟩ := kept_run h
  exact hkept.sound

/-- A reply to a message in the table goes to the chat in its row, whatever other
messages are in work. -/
lemma reply_delivered {before during : List (κ × Input)} {k : κ} {a number chat : ℤ}
    (h : Admitted (fun _ => Possible) (inbox admin msgs) (before ++ during))
    (hfresh : ∀ i, (k, i) ∉ before)
    (hrow : (number, chat) ∈ ((inbox admin msgs).run before).state.support)
    (hadmin : admin = some a) (hchat : (msgs k).chat = a)
    (hreply : (msgs k).replyTo = some (some number))
    (htaken : ∀ i, (k, i) ∈ during → i.sent chat ≠ none) {r : Except Unit Unit}
    (hended : ((inbox admin msgs).run (before ++ during)).Ended k r) :
    r = .ok () ∧ ∃ p ∈ ((inbox admin msgs).run (before ++ during)).state.posts,
      p ∉ ((inbox admin msgs).run before).state.posts ∧ p.cause = msgs k ∧ p.chat = chat ∧
        p.text = answerText (msgs k).text := by
  obtain ⟨hbefore, hduring⟩ := h.of_append
  obtain ⟨γ, hkept, hpool⟩ := kept_run hbefore
  rw [Cfg.run_append] at hended ⊢
  have hwhole := (inbox admin msgs).run_pool_of_notMem hfresh
  generalize (inbox admin msgs).run before = c at *
  -- the reply brings its text, the others leave in place what is there
  have hfollows : ∀ l, Proc.Follows (fun d i => Possible d i ∧ (l = k → i.sent chat ≠ none))
      (fun g d g' d' => (l = k → Bringing (msgs k) number chat g d g' d') ∧ (l ≠ k → d.Grows d'))
      (fun g r => l = k → g = .missed ∨ (g = .brought ∧ r = .ok ())) (c.pool l) Progress.unread := by
    intro l
    by_cases hl : l = k
    · subst hl
      rw [hwhole]
      exact (((follows_reply hadmin hchat hreply).weaken fun d i hi => ⟨hi.1, hi.2 rfl⟩).map id
        (fun _ _ _ _ hstep => ⟨fun _ => hstep, fun hne => absurd rfl hne⟩) fun _ _ hend _ => hend)
    · exact (((hpool l).weaken fun d i hi => hi.1).map (fun _ => Progress.unread)
        (fun _ _ _ _ hturn => ⟨fun heq => absurd heq hl, fun _ => hturn.grows⟩)
        fun _ _ _ heq => absurd heq hl)
  have hstart : OnItsWay (msgs k) number chat c.state.posts c.state Progress.unread :=
    ⟨hkept.sound.numbered, hrow, fun _ => id, by simp, fun hg => by cases hg⟩
  have hstep : ∀ d (δ : κ → Progress) l g' d', OnItsWay (msgs k) number chat c.state.posts d (δ k) →
      ((l = k → Bringing (msgs k) number chat (δ l) d g' d') ∧ (l ≠ k → d.Grows d')) →
      OnItsWay (msgs k) number chat c.state.posts d' (Function.update δ l g' k) := by
    intro d δ l g' d' hway hturn
    by_cases hl : l = k
    · subst hl
      rw [Function.update_self]
      exact hway.step hreply (hturn.1 rfl)
    · rw [Function.update_of_ne (Ne.symm hl)]
      exact hway.grows (hturn.2 hl)
  obtain ⟨δ, hway, hδ⟩ := exists_accounts hstart hfollows hstep
    (hduring.and_mem.mono fun l d i hi => ⟨hi.1, fun heq => htaken i (heq ▸ hi.2)⟩)
  rcases (hδ k).1.result hended rfl with hmissed | ⟨hbrought, hok⟩
  · exact absurd hmissed hway.notMissed
  · exact ⟨hok, hway.brought hbrought⟩

/-- **The relay**: whatever messages come in, in whatever order their steps are taken,
a message that the bot sends to another chat than it came from is a customer's
message for the operator, without a key file in it, or the operator's reply, which
goes to the customer whose message he replied to. A reply to a message that is in the
table when the reply comes in is brought to its chat, if Telegram takes it. -/
theorem relay_sound (h : Admitted (fun _ => Possible) (inbox admin msgs) sched) :
    (∀ p ∈ ((inbox admin msgs).run sched).state.posts, p.chat ≠ p.cause.chat →
      p.Forwards admin ∨ p.Answers admin ((inbox admin msgs).run sched).state.posts) ∧
    ∀ before during, sched = before ++ during → ∀ k, (∀ i, (k, i) ∉ before) →
      ∀ a number chat, (number, chat) ∈ ((inbox admin msgs).run before).state.support →
        admin = some a → (msgs k).chat = a → (msgs k).replyTo = some (some number) →
        (∀ i, (k, i) ∈ during → i.sent chat ≠ none) →
        ∀ r, ((inbox admin msgs).run sched).Ended k r →
          r = .ok () ∧ ∃ p ∈ ((inbox admin msgs).run sched).state.posts,
            p ∉ ((inbox admin msgs).run before).state.posts ∧ p.cause = msgs k ∧ p.chat = chat ∧
              p.text = answerText (msgs k).text := by
  refine ⟨fun p hp hother => ((desk_sound h).posts p hp).resolve_left hother, ?_⟩
  rintro before during rfl k hfresh a number chat hrow hadmin hchat hreply htaken r hended
  exact reply_delivered h hfresh hrow hadmin hchat hreply htaken hended

/-- A customer's message, and the operator's reply to it. -/
def twoMessages : Bool → Message
  | false => ⟨42, " Не подключается ", "anna", none⟩
  | true => ⟨999, "Попробуйте Нидерланды", "op", some (some 1)⟩

/-- Telegram takes every message. -/
def numbering (_ : Bool) (d : Desk) : Input where
  now := d.clock
  sent _ := some ((d.posts.map Post.number).foldr max 0 + 1)
  user _ := none
  card := ""

lemma possible_numbering (k : Bool) (d : Desk) : Possible d (numbering k d) := by
  refine ⟨le_rfl, fun p hp heq => ?_⟩
  have hle : ∀ ns : List ℤ, ∀ n ∈ ns, n ≤ ns.foldr max 0 := by
    intro ns
    induction ns with
    | nil => exact fun n hn => absurd hn List.not_mem_nil
    | cons m ns ih =>
      intro n hn
      rcases List.mem_cons.mp hn with rfl | hn
      · exact le_max_left _ _
      · exact (ih n hn).trans (le_max_right _ _)
  have hnumber := hle _ _ (List.mem_map_of_mem (f := Post.number) hp)
  have hsame : (d.posts.map Post.number).foldr max 0 + 1 = p.number := Option.some.inj heq
  omega

/-- The customer's message is filed; the operator replies while the customer is told so. -/
def asked : List Bool := [false, false, false, false]
def askedAndAnswered : List (Bool × Input) :=
  scheduleBy numbering (inbox (some 999) twoMessages) (asked ++ [true, false, true, true])

lemma askedAndAnswered_admitted :
    Admitted (fun _ => Possible) (inbox (some 999) twoMessages) askedAndAnswered :=
  admitted_scheduleBy possible_numbering _ _

/-- The reply is brought to the customer. -/
theorem relay_sound_two :
    ∃ p ∈ ((inbox (some 999) twoMessages).run askedAndAnswered).state.posts,
      p.chat = 42 ∧ p.text = answerText "Попробуйте Нидерланды" ∧ (p.Forwards (some 999) ∨
        p.Answers (some 999) ((inbox (some 999) twoMessages).run askedAndAnswered).state.posts) := by
  obtain ⟨hsent, hreplies⟩ := relay_sound askedAndAnswered_admitted
  have hended : ((inbox (some 999) twoMessages).run askedAndAnswered).Ended true (.ok ()) := by
    decide
  have hfresh : ∀ i, (true, i) ∉ askedAndAnswered.take 4 := by
    intro i hi
    have hfirst : (askedAndAnswered.take 4).map Prod.fst = asked := by
      rw [List.map_take, askedAndAnswered, map_fst_scheduleBy]
      rfl
    have hmem := List.mem_map_of_mem (f := Prod.fst) hi
    rw [hfirst] at hmem
    exact absurd hmem (by decide : true ∉ asked)
  have htaken : ∀ i, (true, i) ∈ askedAndAnswered.drop 4 → i.sent 42 ≠ none := by
    intro i hi
    obtain ⟨d, rfl⟩ := exists_of_mem_scheduleBy (List.mem_of_mem_drop hi)
    exact Option.some_ne_none _
  obtain ⟨-, p, hp, -, hcause, hchat, htext⟩ := hreplies (askedAndAnswered.take 4)
    (askedAndAnswered.drop 4) (List.take_append_drop 4 _).symm true
    hfresh 999 1 42 (by decide) rfl rfl rfl htaken _ hended
  refine ⟨p, hp, hchat, htext, hsent p hp ?_⟩
  rw [hchat, hcause]
  decide

/-- **No chat fills the operator's**: of the messages of one chat, those let through
within an hour are forwarded at most ten times. -/
theorem forwards_limited (h : Admitted (fun _ => Possible) (inbox admin msgs) sched) (chat : ℤ) (a : ℚ) :
    (((inbox admin msgs).run sched).state.posts.filter fun p =>
      p.cause.chat = chat ∧ p.pass.any fun x => a ≤ x.2 ∧ x.2 ≤ a + supportWindow).length ≤
        supportLimit := by
  have hsound := desk_sound h
  generalize ((inbox admin msgs).run sched).state = d at hsound
  refine le_trans ?_ ((hsound.queues chat).window a)
  have hlen : ∀ ps : List Post, (∀ p ∈ ps, p.pass ≠ none) →
      ps.length = (ps.filterMap fun p => p.pass.map fun x => (p.cause.chat, x)).length := by
    intro ps hps
    rw [List.length_filterMap_eq_countP, List.countP_eq_length.mpr]
    intro p hp
    rw [Option.isSome_map, Option.isSome_iff_ne_none]
    exact hps p hp
  rw [hlen _ fun p hp hnone => by simp [hnone] at hp]
  have hnodup : ((d.posts.filter fun p => p.cause.chat = chat ∧
      p.pass.any fun x => a ≤ x.2 ∧ x.2 ≤ a + supportWindow).filterMap
        fun p => p.pass.map fun x => (p.cause.chat, x)).Nodup :=
    hsound.once.sublist (List.filter_sublist.filterMap _)
  have hpairs : ((d.passes chat).filter fun x => a ≤ x.2 ∧ x.2 ≤ a + supportWindow).length =
      (((d.passes chat).filter fun x => a ≤ x.2 ∧ x.2 ≤ a + supportWindow).map fun x =>
        (chat, x)).length := (List.length_map _).symm
  rw [hpairs]
  refine (hnodup.subperm fun y hy => ?_).length_le
  obtain ⟨p, hp, hmap⟩ := List.mem_filterMap.mp hy
  obtain ⟨x, hx, rfl⟩ := Option.map_eq_some_iff.mp hmap
  obtain ⟨hmem, hcond⟩ := List.mem_filter.mp hp
  obtain ⟨rfl, hwindow⟩ := of_decide_eq_true hcond
  rw [hx] at hwindow
  exact List.mem_map.mpr ⟨x, List.mem_filter.mpr ⟨hsound.passed p hmem x hx, hwindow⟩, rfl⟩

theorem forwards_limited_two :
    (((inbox (some 999) twoMessages).run askedAndAnswered).state.posts.filter fun p =>
      p.cause.chat = 42 ∧ p.pass.any fun x => 0 ≤ x.2 ∧ x.2 ≤ 0 + supportWindow).length ≤
        supportLimit :=
  forwards_limited askedAndAnswered_admitted 42 0

end Runs

end VpnPortal.Relay
