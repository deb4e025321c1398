import Mathlib.Data.List.Nodup
import Mathlib.Logic.Function.Basic
import Mathlib.Logic.Relation

/-!
# Messages by way of a broker

Publishers hand their messages to a broker, which passes them on to the subscribers that are
connected and retains the last one of every topic that is to be retained. A message stands in two
queues on its way, and the head of either may be handed over more than once. A subscriber may be cut
off at any time; what was on its way to it is lost then, and when it comes back it is given what the
broker retains instead.

The broker and the libraries of its clients may be any that do so (`Net.Carrier`).

So a subscriber may miss messages, and it may see one several times. What it cannot miss in the end
is the last message of a retained topic: `Net.Sound` says, from the publisher to the subscriber,
that the last message of a topic is either still in a queue or has got further. Where the queues
hold nothing on the topic, the subscriber has last received what was last sent
(`Net.Sound.settled`).
-/

namespace Network

variable {π κ τ μ : Type}

/-- A message on a topic. -/
structure Packet (τ μ : Type) where
  topic : τ
  payload : μ
  retain : Bool

/-- Who publishes on a topic, whether its messages are to be retained, and who subscribes to it. -/
structure Plan (π κ τ : Type) where
  owner : τ → π
  retained : τ → Bool
  wants : κ → τ → Bool

/-- What publishers have sent so far and what of it has not reached the broker; what the broker
retains; what is on its way to each subscriber that is connected, and what has got there. -/
structure Net (π κ τ μ : Type) where
  sent : π → List (Packet τ μ)
  outgoing : π → List (Packet τ μ)
  retained : τ → Option μ
  incoming : κ → Option (List (Packet τ μ))
  received : κ → List (Packet τ μ)

/-- Nothing sent, nobody connected. -/
def Net.init : Net π κ τ μ := ⟨fun _ ↦ [], fun _ ↦ [], fun _ ↦ none, fun _ ↦ none, fun _ ↦ []⟩

/-! ## The last message of a topic -/

section Latest

variable [DecidableEq τ] {t : τ} {p : Packet τ μ} {ps qs : List (Packet τ μ)}

def latest (t : τ) (ps : List (Packet τ μ)) : Option μ :=
  (ps.reverse.find? fun p ↦ p.topic = t).map Packet.payload

@[simp] theorem latest_nil : latest t ([] : List (Packet τ μ)) = none := rfl

theorem latest_append : latest t (ps ++ qs) = (latest t qs).or (latest t ps) := by
  rw [latest, List.reverse_append, List.find?_append, Option.map_or]
  rfl

theorem latest_singleton : latest t [p] = if p.topic = t then some p.payload else none := by
  by_cases h : p.topic = t <;> simp [latest, h]

theorem latest_cons : latest t (p :: ps) =
    (latest t ps).or (if p.topic = t then some p.payload else none) := by
  rw [← List.singleton_append, latest_append, latest_singleton]

theorem latest_eq_none : latest t ps = none ↔ ∀ p ∈ ps, p.topic ≠ t := by
  simp [latest]

/-- Where every topic occurs once, its message is the last. -/
theorem latest_of_nodup (h : (ps.map Packet.topic).Nodup) (hp : p ∈ ps) :
    latest p.topic ps = some p.payload := by
  induction ps with
  | nil => cases hp
  | cons q ps ih =>
    obtain ⟨hq, hps⟩ := List.nodup_cons.mp h
    rw [latest_cons]
    rcases List.mem_cons.mp hp with rfl | hp
    · have hnone : latest p.topic ps = none := latest_eq_none.mpr fun r hr heq ↦
        hq (heq ▸ List.mem_map_of_mem hr)
      rw [hnone, if_pos rfl, Option.none_or]
    · rw [ih hps hp, Option.some_or]

end Latest

/-! ## Steps -/

/-- The head of a queue is handed over, once and for all or not. -/
def Handed (q : List (Packet τ μ)) (p : Packet τ μ) (rest : List (Packet τ μ)) : Prop :=
  q = p :: rest ∨ q = rest ∧ ∃ ps, rest = p :: ps

section Handed

variable {q rest : List (Packet τ μ)} {p r : Packet τ μ}

theorem Handed.mem (h : Handed q p rest) : p ∈ q := by
  rcases h with rfl | ⟨rfl, ps, rfl⟩
  · exact List.mem_cons_self
  · exact List.mem_cons_self

theorem Handed.mem_of_mem (h : Handed q p rest) (hr : r ∈ rest) : r ∈ q := by
  rcases h with rfl | ⟨rfl, -⟩
  · exact List.mem_cons_of_mem _ hr
  · exact hr

/-- Of what is handed over and what stays the last message is the same as before. -/
theorem Handed.latest_or [DecidableEq τ] (h : Handed q p rest) (t : τ) (m : Option μ) :
    (latest t rest).or ((latest t [p]).or m) = (latest t q).or m := by
  rcases h with rfl | ⟨rfl, ps, rfl⟩
  · rw [latest_singleton, latest_cons, Option.or_assoc]
  · rw [latest_singleton, latest_cons]
    cases latest t ps with
    | some _ => rfl
    | none => split <;> rfl

end Handed

namespace Net

section Publishers

variable [DecidableEq π] (n : Net π κ τ μ) (i j : π) (p : Packet τ μ) (ps rest : List (Packet τ μ))

def publish : Net π κ τ μ :=
  { n with
    sent := Function.update n.sent i (n.sent i ++ ps)
    outgoing := Function.update n.outgoing i (n.outgoing i ++ ps) }

/-- The broker is given a message; `rest` is what its publisher goes on with. -/
def forward [DecidableEq τ] (P : Plan π κ τ) : Net π κ τ μ :=
  { n with
    outgoing := Function.update n.outgoing i rest
    retained := if p.retain then Function.update n.retained p.topic (some p.payload)
      else n.retained
    incoming := fun k ↦ (n.incoming k).map fun q ↦ if P.wants k p.topic then q ++ [p] else q }

theorem sent_publish :
    (n.publish i ps).sent j = if j = i then n.sent j ++ ps else n.sent j := by
  refine (Function.update_apply ..).trans ?_
  split
  · rw [‹j = i›]
  · rfl

theorem outgoing_publish :
    (n.publish i ps).outgoing j = if j = i then n.outgoing j ++ ps else n.outgoing j := by
  refine (Function.update_apply ..).trans ?_
  split
  · rw [‹j = i›]
  · rfl

theorem outgoing_forward [DecidableEq τ] (P : Plan π κ τ) :
    (n.forward i p rest P).outgoing j = if j = i then rest else n.outgoing j :=
  Function.update_apply ..

theorem incoming_forward [DecidableEq τ] {n : Net π κ τ μ} {P : Plan π κ τ} {k : κ}
    {q : List (Packet τ μ)} (hq : n.incoming k = some q) :
    (n.forward i p rest P).incoming k = some (if P.wants k p.topic then q ++ [p] else q) := by
  simp [forward, hq]

end Publishers

section Subscribers

variable [DecidableEq κ] (n : Net π κ τ μ) (k k' : κ) (p : Packet τ μ) (ps rest : List (Packet τ μ))

def connect : Net π κ τ μ := { n with incoming := Function.update n.incoming k (some ps) }

def disconnect : Net π κ τ μ := { n with incoming := Function.update n.incoming k none }

/-- A subscriber is given a message; `rest` is what the broker goes on with. -/
def deliver : Net π κ τ μ :=
  { n with
    incoming := Function.update n.incoming k (some rest)
    received := Function.update n.received k (n.received k ++ [p]) }

theorem incoming_connect :
    (n.connect k ps).incoming k' = if k' = k then some ps else n.incoming k' :=
  Function.update_apply ..

theorem incoming_disconnect :
    (n.disconnect k).incoming k' = if k' = k then none else n.incoming k' :=
  Function.update_apply ..

theorem incoming_deliver :
    (n.deliver k p rest).incoming k' = if k' = k then some rest else n.incoming k' :=
  Function.update_apply ..

theorem received_deliver :
    (n.deliver k p rest).received k' = if k' = k then n.received k' ++ [p] else n.received k' := by
  refine (Function.update_apply ..).trans ?_
  split
  · rw [‹k' = k›]
  · rfl

end Subscribers

/-- What a subscriber is given when it connects: the retained messages of its topics, in any
order. -/
structure Greets (P : Plan π κ τ) (n : Net π κ τ μ) (k : κ) (ps : List (Packet τ μ)) : Prop where
  nodup : (ps.map Packet.topic).Nodup
  mem_iff : ∀ p, p ∈ ps ↔
    p.retain = true ∧ P.wants k p.topic = true ∧ n.retained p.topic = some p.payload

/-- A broker with the libraries of its clients, and what is assumed of them. -/
structure Carrier (P : Plan π κ τ) (μ : Type) where
  /-- a message is handed over from a queue; the last list is what stays of it -/
  Hands : List (Packet τ μ) → Packet τ μ → List (Packet τ μ) → Prop
  /-- what a subscriber is given when it connects -/
  Gives : Net π κ τ μ → κ → List (Packet τ μ) → Prop
  /-- messages keep their order, and nothing but the head of a queue is repeated -/
  inOrder {q : List (Packet τ μ)} {p : Packet τ μ} {rest : List (Packet τ μ)} :
    Hands q p rest → Handed q p rest
  /-- who connects is given what is retained on its topics -/
  retained {n : Net π κ τ μ} {k : κ} {ps : List (Packet τ μ)} : Gives n k ps → n.Greets P k ps
  /-- a queue can move on -/
  hands (p : Packet τ μ) (rest : List (Packet τ μ)) : Hands (p :: rest) p rest
  /-- a subscriber can connect -/
  gives {n : Net π κ τ μ} {ts : List τ} (hts : ∀ t, n.retained t ≠ none → t ∈ ts)
    (hnodup : ts.Nodup) (k : κ) : ∃ ps, Gives n k ps

inductive Step [DecidableEq π] [DecidableEq κ] [DecidableEq τ] {P : Plan π κ τ} (C : Carrier P μ) :
    Net π κ τ μ → Net π κ τ μ → Prop
  | publish {n : Net π κ τ μ} {i : π} {ps : List (Packet τ μ)}
      (h : ∀ p ∈ ps, P.owner p.topic = i ∧ p.retain = P.retained p.topic) :
      Step C n (n.publish i ps)
  | forward {n : Net π κ τ μ} {i : π} {p : Packet τ μ} {rest : List (Packet τ μ)}
      (h : C.Hands (n.outgoing i) p rest) : Step C n (n.forward i p rest P)
  | connect {n : Net π κ τ μ} {k : κ} {ps : List (Packet τ μ)} (h : C.Gives n k ps) :
      Step C n (n.connect k ps)
  | disconnect {n : Net π κ τ μ} {k : κ} : Step C n (n.disconnect k)
  | deliver {n : Net π κ τ μ} {k : κ} {q rest : List (Packet τ μ)} {p : Packet τ μ}
      (hq : n.incoming k = some q) (h : C.Hands q p rest) : Step C n (n.deliver k p rest)

/-! ## Nothing but what was sent, and the last of it -/

variable {P : Plan π κ τ} {n n' : Net π κ τ μ} {i : π} {k : κ} {t : τ} {p : Packet τ μ}
  {ps q rest : List (Packet τ μ)}

/-- Its publisher has sent the message, and has asked for what the plan says. -/
def Sent (P : Plan π κ τ) (n : Net π κ τ μ) (p : Packet τ μ) : Prop :=
  p ∈ n.sent (P.owner p.topic) ∧ p.retain = P.retained p.topic

/-- What holds of the network at any time. -/
structure Sound [DecidableEq τ] (P : Plan π κ τ) (n : Net π κ τ μ) : Prop where
  outgoing : ∀ i, ∀ p ∈ n.outgoing i, P.owner p.topic = i ∧ n.Sent P p
  retained : ∀ t m, n.retained t = some m → n.Sent P ⟨t, m, true⟩
  incoming : ∀ k q, n.incoming k = some q → ∀ p ∈ q, P.wants k p.topic = true ∧ n.Sent P p
  received : ∀ k, ∀ p ∈ n.received k, P.wants k p.topic = true ∧ n.Sent P p
  /-- the last message is on its way to the broker, or is there -/
  forwarded : ∀ t, P.retained t = true →
    (latest t (n.outgoing (P.owner t))).or (n.retained t) = latest t (n.sent (P.owner t))
  /-- what the broker retains is on its way to the subscriber, or is there -/
  followed : ∀ k t q, P.retained t = true → P.wants k t = true → n.incoming k = some q →
    (latest t q).or (latest t (n.received k)) = n.retained t
  /-- nobody has received anything on a topic on which the broker retains nothing -/
  unheard : ∀ k t, P.retained t = true → P.wants k t = true → n.retained t = none →
    latest t (n.received k) = none

/-- The subscriber is connected, and nothing on the topic is under way to it. -/
def Delivered [DecidableEq τ] (P : Plan π κ τ) (n : Net π κ τ μ) (k : κ) (t : τ) : Prop :=
  latest t (n.outgoing (P.owner t)) = none ∧ ∃ q, n.incoming k = some q ∧ latest t q = none

theorem Greets.latest_eq [DecidableEq τ] (h : n.Greets P k ps) (hwants : P.wants k t = true) :
    latest t ps = n.retained t := by
  cases hret : n.retained t with
  | none =>
    refine latest_eq_none.mpr fun p hp htopic ↦ ?_
    have hsome := ((h.mem_iff p).mp hp).2.2
    rw [htopic, hret] at hsome
    cases hsome
  | some m =>
    have hmem : (⟨t, m, true⟩ : Packet τ μ) ∈ ps := (h.mem_iff _).mpr ⟨rfl, hwants, hret⟩
    exact latest_of_nodup h.nodup hmem

/-- A subscriber can connect at any time. -/
theorem exists_greets {ts : List τ} (hts : ∀ t, n.retained t ≠ none → t ∈ ts) (hnodup : ts.Nodup)
    (k : κ) : ∃ ps, n.Greets P k ps := by
  let greeting (t : τ) : Option (Packet τ μ) :=
    if P.wants k t then (n.retained t).map fun m ↦ ⟨t, m, true⟩ else none
  have hgreeting {t : τ} {p : Packet τ μ} : greeting t = some p ↔
      p.topic = t ∧ p.retain = true ∧ P.wants k t = true ∧ n.retained t = some p.payload := by
    obtain ⟨topic, payload, retain⟩ := p
    by_cases hwants : P.wants k t = true
    · simp only [greeting, hwants, if_true, Option.map_eq_some_iff, Packet.mk.injEq]
      constructor
      · rintro ⟨m, hm, rfl, rfl, rfl⟩
        exact ⟨rfl, rfl, trivial, hm⟩
      · rintro ⟨rfl, rfl, -, hm⟩
        exact ⟨payload, hm, rfl, rfl, rfl⟩
    · simp [greeting, hwants]
  refine ⟨ts.filterMap greeting, ?_, fun p ↦ ?_⟩
  · rw [List.map_filterMap]
    refine hnodup.filterMap fun t t' u hu hu' ↦ ?_
    obtain ⟨p, hp, rfl⟩ := Option.map_eq_some_iff.mp hu
    obtain ⟨p', hp', htopic⟩ := Option.map_eq_some_iff.mp hu'
    exact (hgreeting.mp hp).1.symm.trans (htopic.symm.trans (hgreeting.mp hp').1)
  · rw [List.mem_filterMap]
    constructor
    · rintro ⟨t, -, ht⟩
      obtain ⟨rfl, hretain, hwants, hret⟩ := hgreeting.mp ht
      exact ⟨hretain, hwants, hret⟩
    · rintro ⟨hretain, hwants, hret⟩
      exact ⟨p.topic, hts _ (by simp [hret]), hgreeting.mpr ⟨rfl, hretain, hwants, hret⟩⟩

/-- The carrier that does whatever is allowed. -/
def Carrier.free (P : Plan π κ τ) (μ : Type) : Carrier P μ where
  Hands := Handed
  Gives n k ps := n.Greets P k ps
  inOrder h := h
  retained h := h
  hands _ _ := .inl rfl
  gives := exists_greets

/-- What has been sent stays sent. -/
theorem Sent.publish [DecidableEq π] (h : n.Sent P p) : (n.publish i ps).Sent P p := by
  refine ⟨?_, h.2⟩
  rw [sent_publish]
  split
  · exact List.mem_append_left _ h.1
  · exact h.1

namespace Sound

variable [DecidableEq τ]

theorem init : (Net.init : Net π κ τ μ).Sound P where
  outgoing _ _ h := absurd h List.not_mem_nil
  retained _ _ h := by cases h
  incoming _ _ h := by cases h
  received _ _ h := absurd h List.not_mem_nil
  forwarded _ _ := rfl
  followed _ _ _ _ _ h := by cases h
  unheard _ _ _ _ _ := rfl

theorem publish [DecidableEq π] (hn : n.Sound P)
    (h : ∀ p ∈ ps, P.owner p.topic = i ∧ p.retain = P.retained p.topic) :
    (n.publish i ps).Sound P where
  outgoing j p hp := by
    rw [outgoing_publish] at hp
    split at hp
    · rename_i hj
      rcases List.mem_append.mp hp with hp | hp
      · exact ⟨(hn.outgoing j p hp).1, (hn.outgoing j p hp).2.publish⟩
      · obtain ⟨howner, hretain⟩ := h p hp
        refine ⟨howner.trans hj.symm, ?_, hretain⟩
        rw [sent_publish, if_pos howner]
        exact List.mem_append_right _ hp
    · exact ⟨(hn.outgoing j p hp).1, (hn.outgoing j p hp).2.publish⟩
  retained t m hm := (hn.retained t m hm).publish
  incoming k q hq p hp := (hn.incoming k q hq p hp).imp id Sent.publish
  received k p hp := (hn.received k p hp).imp id Sent.publish
  forwarded t ht := by
    have hbefore := hn.forwarded t ht
    rw [outgoing_publish, sent_publish]
    split
    · rw [latest_append, latest_append, Option.or_assoc]
      exact congrArg _ hbefore
    · exact hbefore
  followed := hn.followed
  unheard := hn.unheard

/-- What the broker retains when it has been given a message. -/
theorem retained_forward [DecidableEq π] (hsent : n.Sent P p) (ht : P.retained t = true) :
    (n.forward i p rest P).retained t = (latest t [p]).or (n.retained t) := by
  rw [Net.forward, latest_singleton]
  by_cases htopic : p.topic = t
  · subst htopic
    simp [hsent.2, ht]
  · rw [if_neg htopic, Option.none_or]
    dsimp only
    split
    · exact Function.update_of_ne (Ne.symm htopic) _ _
    · rfl

theorem forward [DecidableEq π] (hn : n.Sound P) (h : Handed (n.outgoing i) p rest) :
    (n.forward i p rest P).Sound P := by
  obtain ⟨howner, hsent⟩ := hn.outgoing i p h.mem
  refine ⟨fun j r hr ↦ ?_, fun t m hm ↦ ?_, fun k q hq r hr ↦ ?_, hn.received,
    fun t ht ↦ ?_, fun k t q ht hwants hq ↦ ?_, fun k t ht hwants hnone ↦ ?_⟩
  · rw [outgoing_forward] at hr
    split at hr
    · rename_i hj
      subst hj
      exact hn.outgoing j r (h.mem_of_mem hr)
    · exact hn.outgoing j r hr
  · rw [Net.forward] at hm
    dsimp only at hm
    split at hm
    · rename_i hretain
      by_cases htopic : t = p.topic
      · subst htopic
        rw [Function.update_self] at hm
        obtain rfl := Option.some.inj hm
        rw [← hretain]
        exact hsent
      · rw [Function.update_of_ne htopic] at hm
        exact hn.retained t m hm
    · exact hn.retained t m hm
  · obtain ⟨q₀, hq₀, rfl⟩ := Option.map_eq_some_iff.mp hq
    split at hr
    · rename_i hwants
      rcases List.mem_append.mp hr with hr | hr
      · exact hn.incoming k q₀ hq₀ r hr
      · rw [List.mem_singleton.mp hr]
        exact ⟨hwants, hsent⟩
    · exact hn.incoming k q₀ hq₀ r hr
  · have hbefore := hn.forwarded t ht
    rw [retained_forward hsent ht, outgoing_forward]
    split
    · rename_i hj
      rw [h.latest_or, ← hj]
      exact hbefore
    · rename_i hj
      have htopic : p.topic ≠ t := fun heq ↦ hj (heq ▸ howner)
      rw [latest_singleton, if_neg htopic, Option.none_or]
      exact hbefore
  · obtain ⟨q₀, hq₀, rfl⟩ := Option.map_eq_some_iff.mp hq
    have hbefore := hn.followed k t q₀ ht hwants hq₀
    rw [retained_forward hsent ht]
    split
    · rw [latest_append, Option.or_assoc]
      exact congrArg _ hbefore
    · rename_i hno
      have htopic : p.topic ≠ t := fun heq ↦ hno (heq ▸ hwants)
      rw [latest_singleton, if_neg htopic, Option.none_or]
      exact hbefore
  · rw [retained_forward hsent ht] at hnone
    exact hn.unheard k t ht hwants (Option.or_eq_none_iff.mp hnone).2

theorem connect [DecidableEq κ] (hn : n.Sound P) (h : n.Greets P k ps) :
    (n.connect k ps).Sound P := by
  refine ⟨hn.outgoing, hn.retained, fun k' q hq p hp ↦ ?_, hn.received, hn.forwarded,
    fun k' t q ht hwants hq ↦ ?_, hn.unheard⟩
  · rw [incoming_connect] at hq
    split at hq
    · rename_i hk
      subst hk
      obtain rfl := Option.some.inj hq
      obtain ⟨hretain, hwants, hret⟩ := (h.mem_iff p).mp hp
      have hsent := hn.retained _ _ hret
      rw [← hretain] at hsent
      exact ⟨hwants, hsent⟩
    · exact hn.incoming k' q hq p hp
  · rw [incoming_connect] at hq
    split at hq
    · rename_i hk
      subst hk
      obtain rfl := Option.some.inj hq
      rw [h.latest_eq hwants]
      change (n.retained t).or (latest t (n.received k')) = n.retained t
      cases hret : n.retained t with
      | some m => rfl
      | none => exact hn.unheard k' t ht hwants hret
    · exact hn.followed k' t q ht hwants hq

theorem disconnect [DecidableEq κ] (hn : n.Sound P) : (n.disconnect k).Sound P := by
  have hstay {k' : κ} {q : List (Packet τ μ)} (hq : (n.disconnect k).incoming k' = some q) :
      n.incoming k' = some q := by
    rw [incoming_disconnect] at hq
    split at hq
    · cases hq
    · exact hq
  exact ⟨hn.outgoing, hn.retained, fun k' q hq ↦ hn.incoming k' q (hstay hq), hn.received,
    hn.forwarded, fun k' t q ht hwants hq ↦ hn.followed k' t q ht hwants (hstay hq), hn.unheard⟩

theorem deliver [DecidableEq κ] (hn : n.Sound P) (hq : n.incoming k = some q)
    (h : Handed q p rest) : (n.deliver k p rest).Sound P := by
  refine ⟨hn.outgoing, hn.retained, fun k' q' hq' r hr ↦ ?_, fun k' r hr ↦ ?_, hn.forwarded,
    fun k' t q' ht hwants hq' ↦ ?_, fun k' t ht hwants hnone ↦ ?_⟩
  · rw [incoming_deliver] at hq'
    split at hq'
    · rename_i hk
      subst hk
      obtain rfl := Option.some.inj hq'
      exact hn.incoming k' q hq r (h.mem_of_mem hr)
    · exact hn.incoming k' q' hq' r hr
  · rw [received_deliver] at hr
    split at hr
    · rename_i hk
      subst hk
      rcases List.mem_append.mp hr with hr | hr
      · exact hn.received k' r hr
      · rw [List.mem_singleton.mp hr]
        exact hn.incoming k' q hq p h.mem
    · exact hn.received k' r hr
  · rw [incoming_deliver] at hq'
    rw [received_deliver]
    split at hq'
    · rename_i hk
      subst hk
      obtain rfl := Option.some.inj hq'
      rw [if_pos rfl, latest_append, h.latest_or]
      exact hn.followed k' t q ht hwants hq
    · rw [if_neg ‹_›]
      exact hn.followed k' t q' ht hwants hq'
  · have hbefore := hn.unheard k' t ht hwants hnone
    rw [received_deliver]
    split
    · rename_i hk
      subst hk
      have hnothing := hn.followed k' t q ht hwants hq
      rw [hbefore, Option.or_none] at hnothing
      replace hnothing := hnothing.trans hnone
      rw [latest_append, hbefore, Option.or_none, latest_singleton,
        if_neg (latest_eq_none.mp hnothing p h.mem)]
    · exact hbefore

theorem step [DecidableEq π] [DecidableEq κ] {C : Carrier P μ} (hn : n.Sound P)
    (h : Step C n n') : n'.Sound P := by
  cases h with
  | publish h => exact hn.publish h
  | forward h => exact hn.forward (C.inOrder h)
  | connect h => exact hn.connect (C.retained h)
  | disconnect => exact hn.disconnect
  | deliver hq h => exact hn.deliver hq (C.inOrder h)

/-- **In the end the last message has arrived.** If nothing on a retained topic is under way to a
subscriber, it has last received what was last sent. -/
theorem settled (hn : n.Sound P) (ht : P.retained t = true) (hwants : P.wants k t = true)
    (h : n.Delivered P k t) : latest t (n.received k) = latest t (n.sent (P.owner t)) := by
  obtain ⟨hout, q, hq, hin⟩ := h
  have hfollowed := hn.followed k t q ht hwants hq
  have hforwarded := hn.forwarded t ht
  rw [hin, Option.none_or] at hfollowed
  rw [hout, Option.none_or] at hforwarded
  exact hfollowed.trans hforwarded

end Sound

end Net

end Network
