import Mathlib.Logic.Function.Basic
import ModelRegistry.Client
import ModelRegistry.Proofs.Watching

namespace ModelRegistry

namespace Subscription

theorem produce_frame (env : Env) (c : Connection) (s : Subscription)
    (signal : Call.Signal Response) :
    (s.produce env c signal).2.replica = s.replica ∧
      (s.produce env c signal).2.listening = s.listening := by
  unfold produce send
  split
  · exact ⟨rfl, rfl⟩
  · split
    · exact ⟨rfl, rfl⟩
    · split <;> exact ⟨rfl, rfl⟩
  · exact ⟨rfl, rfl⟩
  · exact ⟨rfl, rfl⟩

end Subscription

namespace Client

def checkedLookup (c : Client) (runtime : Bool) (model : ModelId) :
    Option (Except Error (Client × Replica)) :=
  match c.subscription? model with
  | some (_, s) => some (.ok (c, s.replica))
  | none =>
    if !runtime then some (.error noRuntime)
    else if c.registry.MakesChannel then some (.ok (c.subscribe model, .new model))
    else none

theorem checkedLookup_eq {c : Client} (h : c.registry.MakesChannel) (runtime : Bool)
    (model : ModelId) : c.checkedLookup runtime model = some (c.lookup runtime model) := by
  unfold checkedLookup lookup
  cases c.subscription? model with
  | some found => rfl
  | none => cases runtime <;> simp [h]

theorem lookup_cases {c c' : Client} {runtime : Bool} {model : ModelId} {r : Replica}
    (h : c.lookup runtime model = .ok (c', r)) :
    c' = c ∨ c.subscription? model = none ∧ c' = c.subscribe model := by
  unfold lookup at h
  split at h
  · cases h
    exact .inl rfl
  · rename_i hnone
    split at h
    · cases h
      exact .inr ⟨hnone, rfl⟩
    · cases h

theorem getElem?_subscriptions_subscribe {c : Client} {model : ModelId} {n : Nat}
    {s : Subscription} (h : (c.subscribe model).subscriptions[n]? = some s) :
    c.subscriptions[n]? = some s ∨ n = c.subscriptions.size ∧ s = .start c.retry model := by
  rw [subscribe, Array.getElem?_push] at h
  split at h
  · cases h
    exact .inr ⟨‹_›, rfl⟩
  · exact .inl h

theorem subscriptions_produce {c : Client} {n : Nat} {s : Subscription}
    (hs : c.subscriptions[n]? = some s) (now : Nat) (draws : Draws)
    (signal : Call.Signal Response) :
    (c.produce now draws n signal).subscriptions = c.subscriptions.setIfInBounds n
      (s.produce (c.env now draws) c.connection signal).2 := by
  simp [produce, hs]

theorem connection_produce {c : Client} {n : Nat} {s : Subscription}
    (hs : c.subscriptions[n]? = some s) (now : Nat) (draws : Draws)
    (signal : Call.Signal Response) :
    (c.produce now draws n signal).connection =
      (s.produce (c.env now draws) c.connection signal).1 := by
  simp [produce, hs, stepped]

theorem tracked_produce (c : Client) (now : Nat) (draws : Draws) (n : Nat)
    (signal : Call.Signal Response) : (c.produce now draws n signal).tracked = c.tracked := by
  unfold produce
  split <;> rfl

theorem cluster_produce (c : Client) (now : Nat) (draws : Draws) (n : Nat)
    (signal : Call.Signal Response) : (c.produce now draws n signal).cluster = c.cluster := by
  unfold produce
  split <;> rfl

theorem consume_cases {c c' : Client} {n : Nat} (h : c.consume n = some c') :
    ∃ s s' u, c.subscriptions[n]? = some s ∧ s.consume = some (u, s') ∧
      (c'.cluster = c.cluster ∧ c'.connection = c.connection) ∧
      c'.subscriptions = c.subscriptions.setIfInBounds n s' ∧
      (c'.tracked = c.tracked ∨
        s'.listening = false ∧ c.tracked[s'.replica.model]? = some n ∧
          c'.tracked = c.tracked.erase s'.replica.model) := by
  unfold consume at h
  simp only [Option.bind_eq_bind, Option.bind_eq_some_iff] at h
  obtain ⟨s, hs, ⟨u, s'⟩, hc, h⟩ := h
  refine ⟨s, s', u, hs, hc, ?_⟩
  obtain ⟨-, ⟨b, rest, rfl, -, rfl⟩ | ⟨e, rest, rfl, -, rfl⟩⟩ := Subscription.consume_cases hc
  · cases h
    exact ⟨⟨rfl, rfl⟩, rfl, .inl rfl⟩
  · simp only [Option.pure_def, Option.some.injEq] at h
    split at h
    · subst h
      exact ⟨⟨rfl, rfl⟩, rfl, .inr ⟨rfl, ‹_›, rfl⟩⟩
    · subst h
      exact ⟨⟨rfl, rfl⟩, rfl, .inl rfl⟩

structure Tracks (c : Client) : Prop where
  kept : ∀ n (s : Subscription), c.subscriptions[n]? = some s →
    c.tracked[s.replica.model]? = some n ∨ s.listening = false
  known : ∀ m n, c.tracked[m]? = some n →
    ∃ s : Subscription, c.subscriptions[n]? = some s ∧ s.replica.model = m

theorem tracks_new (cluster : ClusterId) (registry : RegistrySettings) (retry : RetrySettings) :
    (new cluster registry retry).Tracks where
  kept := by
    intro n s hs
    simp [new] at hs
  known := by
    intro m n hm
    simp [new] at hm

theorem Tracks.tracked_eq_none {c : Client} (h : c.Tracks) {model : ModelId}
    (hnone : c.subscription? model = none) : c.tracked[model]? = none := by
  by_contra hm
  obtain ⟨n, hn⟩ := Option.ne_none_iff_exists'.mp hm
  obtain ⟨s, hs, -⟩ := h.known model n hn
  simp [subscription?, hn, hs] at hnone

theorem Tracks.lookup {c c' : Client} (h : c.Tracks) {runtime : Bool} {model : ModelId}
    {r : Replica} (hl : c.lookup runtime model = .ok (c', r)) : c'.Tracks := by
  rcases lookup_cases hl with rfl | ⟨hnone, rfl⟩
  · exact h
  have hnew : c.tracked[model]? = none := h.tracked_eq_none hnone
  constructor
  · intro n s hs
    rcases getElem?_subscriptions_subscribe hs with hs | ⟨rfl, rfl⟩
    · refine (h.kept n s hs).imp_left fun hk => ?_
      have hne : model ≠ s.replica.model := by
        rintro rfl
        simp [hnew] at hk
      have hc : ¬ compare model s.replica.model = .eq :=
        fun he => hne (Std.LawfulEqOrd.eq_of_compare he)
      simpa [subscribe, Std.ExtTreeMap.getElem?_insert, hc] using hk
    · exact .inl (by simp [subscribe, Subscription.start, Replica.new])
  · intro m n hm
    by_cases hc : compare model m = .eq
    · obtain rfl := Std.LawfulEqOrd.eq_of_compare hc
      obtain rfl : c.subscriptions.size = n := by simpa [subscribe] using hm
      exact ⟨.start c.retry model, by simp [subscribe], rfl⟩
    · have hm' : c.tracked[m]? = some n := by
        simpa [subscribe, Std.ExtTreeMap.getElem?_insert, hc] using hm
      obtain ⟨s, hs, he⟩ := h.known m n hm'
      have hlt := (Array.getElem?_eq_some_iff.mp hs).1
      exact ⟨s, by rw [subscribe, Array.getElem?_push_lt hlt]; simpa [hlt] using hs, he⟩

theorem getElem?_replaced {xs : Array Subscription} {n k : Nat} {s s' t : Subscription}
    (hs : xs[n]? = some s) (ht : (xs.setIfInBounds n s')[k]? = some t) :
    k = n ∧ s' = t ∨ k ≠ n ∧ xs[k]? = some t := by
  by_cases hk : k = n
  · subst hk
    have hlt := (Array.getElem?_eq_some_iff.mp hs).1
    rw [Array.getElem?_setIfInBounds_self_of_lt hlt] at ht
    exact .inl ⟨rfl, Option.some.inj ht⟩
  · rw [Array.getElem?_setIfInBounds_ne (Ne.symm hk)] at ht
    exact .inr ⟨hk, ht⟩

theorem Tracks.replace {c c' : Client} (h : c.Tracks) {n : Nat} {s s' : Subscription}
    (hs : c.subscriptions[n]? = some s)
    (hsub : c'.subscriptions = c.subscriptions.setIfInBounds n s')
    (hmodel : s'.replica.model = s.replica.model) (hl : s.listening = false → s'.listening = false)
    (htr : c'.tracked = c.tracked ∨ s'.listening = false ∧
      c.tracked[s'.replica.model]? = some n ∧ c'.tracked = c.tracked.erase s'.replica.model) :
    c'.Tracks := by
  constructor
  · intro k t ht
    rw [hsub] at ht
    rcases getElem?_replaced hs ht with ⟨rfl, rfl⟩ | ⟨hk, ht⟩
    · rcases h.kept k s hs with hkept | hf
      · rcases htr with htr | ⟨hf, -, -⟩
        · exact .inl (by rw [htr, hmodel, hkept])
        · exact .inr hf
      · exact .inr (hl hf)
    · refine (h.kept k t ht).imp_left fun hkept => ?_
      rcases htr with htr | ⟨-, hown, htr⟩
      · rw [htr, hkept]
      · have hne : ¬ compare s'.replica.model t.replica.model = .eq := by
          intro he
          rw [Std.LawfulEqOrd.eq_of_compare he, hkept] at hown
          exact hk (Option.some.inj hown)
        rw [htr, Std.ExtTreeMap.getElem?_erase, if_neg hne, hkept]
  · intro m k hm
    have hm' : c.tracked[m]? = some k := by
      rcases htr with htr | ⟨-, -, htr⟩
      · rwa [htr] at hm
      · rw [htr, Std.ExtTreeMap.getElem?_erase] at hm
        split at hm
        · cases hm
        · exact hm
    obtain ⟨t, ht, he⟩ := h.known m k hm'
    rw [hsub]
    by_cases hk : k = n
    · subst hk
      obtain rfl : s = t := Option.some.inj (hs.symm.trans ht)
      have hlt := (Array.getElem?_eq_some_iff.mp hs).1
      exact ⟨s', Array.getElem?_setIfInBounds_self_of_lt hlt, hmodel.trans he⟩
    · exact ⟨t, (Array.getElem?_setIfInBounds_ne (Ne.symm hk)).trans ht, he⟩

theorem tracks_produce {c : Client} (h : c.Tracks) (now : Nat) (draws : Draws) (n : Nat)
    (signal : Call.Signal Response) : (c.produce now draws n signal).Tracks := by
  cases hs : c.subscriptions[n]? with
  | none => simpa [Client.produce, hs] using h
  | some s =>
    have hp := s.produce_frame (c.env now draws) c.connection signal
    refine h.replace hs (subscriptions_produce hs now draws signal) ?_ ?_ ?_
    · rw [hp.1]
    · rw [hp.2]
      exact id
    · exact .inl (tracked_produce ..)

theorem tracks_consume {c c' : Client} (h : c.Tracks) {n : Nat} (hc : c.consume n = some c') :
    c'.Tracks := by
  obtain ⟨s, s', u, hs, hcons, -, hsub, htr⟩ := consume_cases hc
  refine h.replace hs hsub (Subscription.consume_producer hcons).2 ?_ htr
  obtain ⟨hl, -⟩ := Subscription.consume_cases hcons
  intro hf
  simp [hl] at hf

end Client

structure Session where
  client : Client
  journals : Nat → List Note

namespace Session

def produce (now : Nat) (draws : Draws) (n : Nat) (w : Session) (signal : Call.Signal Response) :
    Session where
  client := w.client.produce now draws n signal
  journals := match w.client.subscriptions[n]? with
    | some s => Function.update w.journals n
        ((s.note (w.client.env now draws) w.client.connection signal).toList ++ w.journals n)
    | none => w.journals

inductive Reachable : Session → Prop
  | start (cluster : ClusterId) (registry : RegistrySettings) (retry : RetrySettings) :
      Reachable ⟨.new cluster registry retry, fun _ => []⟩
  | share {w : Session} (c : Connection) :
      Reachable w → Reachable { w with client := { w.client with connection := c } }
  | lookup {w : Session} {c : Client} {r : Replica} (runtime : Bool) (model : ModelId) :
      Reachable w → w.client.lookup runtime model = .ok (c, r) → Reachable { w with client := c }
  | produce {w : Session} (now : Nat) (draws : Draws) (n : Nat) (signal : Call.Signal Response) :
      Reachable w → signal ≠ .cutOff → Reachable (w.produce now draws n signal)
  | consume {w : Session} {n : Nat} {c : Client} :
      Reachable w → w.client.consume n = some c → Reachable { w with client := c }

theorem produce_none {now : Nat} {draws : Draws} {n : Nat} {w : Session}
    {signal : Call.Signal Response} (h : w.client.subscriptions[n]? = none) :
    w.produce now draws n signal = w := by
  simp [produce, Client.produce, h]

theorem Reachable.tracks {w : Session} (h : Reachable w) : w.client.Tracks := by
  induction h with
  | start cluster registry retry => exact Client.tracks_new cluster registry retry
  | share c _ ih => exact ⟨ih.kept, ih.known⟩
  | lookup runtime model _ hl ih => exact ih.lookup hl
  | produce now draws n signal _ _ ih => exact Client.tracks_produce ih now draws n signal
  | consume _ hc ih => exact Client.tracks_consume ih hc

theorem Reachable.journal_eq_nil {w : Session} (h : Reachable w) :
    ∀ n, w.client.subscriptions.size ≤ n → w.journals n = [] := by
  induction h with
  | start => exact fun n _ => rfl
  | share c _ ih => exact ih
  | lookup runtime model _ hl ih =>
    rcases Client.lookup_cases hl with rfl | ⟨-, rfl⟩
    · exact ih
    · intro n hn
      simp only [Client.subscribe, Array.size_push] at hn
      exact ih n (by omega)
  | @produce w now draws n signal _ _ ih =>
    cases hs : w.client.subscriptions[n]? with
    | none => rwa [produce_none hs]
    | some s =>
      intro k hk
      have hn := (Array.getElem?_eq_some_iff.mp hs).1
      simp only [Session.produce, Client.subscriptions_produce hs, Array.size_setIfInBounds] at hk
      have hne : k ≠ n := by omega
      simp only [Session.produce, hs, Function.update_of_ne hne]
      exact ih k hk
  | consume _ hc ih =>
    obtain ⟨s, s', u, hs, -, -, hsub, -⟩ := Client.consume_cases hc
    intro k hk
    simp only [hsub, Array.size_setIfInBounds] at hk
    exact ih k hk

theorem Reachable.watch {w : Session} (h : Reachable w) :
    ∀ n s, w.client.subscriptions[n]? = some s →
      Watch.Reachable (fun _ _ => True) ⟨w.client.connection, s, w.journals n⟩ := by
  induction h with
  | start cluster registry retry =>
    intro n s hs
    simp [Client.new] at hs
  | share c _ ih => exact fun n s hs => .share c (ih n s hs)
  | @lookup w c r runtime model hw hl ih =>
    rcases Client.lookup_cases hl with rfl | ⟨-, rfl⟩
    · exact ih
    · intro n s hs
      rcases Client.getElem?_subscriptions_subscribe hs with hs | ⟨rfl, rfl⟩
      · exact ih n s hs
      · rw [hw.journal_eq_nil _ (Nat.le_refl _)]
        exact .start _ _ _
  | @produce w now draws n signal _ hsig ih =>
    cases hs : w.client.subscriptions[n]? with
    | none => rwa [produce_none hs]
    | some s =>
      intro k t ht
      simp only [Session.produce, Client.subscriptions_produce hs, Client.connection_produce hs, hs]
        at ht ⊢
      rcases Client.getElem?_replaced hs ht with ⟨rfl, rfl⟩ | ⟨hk, ht⟩
      · rw [Function.update_self]
        exact .produce _ signal (ih k s hs) hsig (fun _ _ => trivial)
      · rw [Function.update_of_ne hk]
        exact .share _ (ih k t ht)
  | @consume w n c _ hc ih =>
    obtain ⟨s, s', u, hs, hcons, ⟨-, hconn⟩, hsub, -⟩ := Client.consume_cases hc
    intro k t ht
    rw [hsub] at ht
    rw [hconn]
    rcases Client.getElem?_replaced hs ht with ⟨rfl, rfl⟩ | ⟨hk, ht⟩
    · exact .consume (ih k s hs) hcons
    · exact ih k t ht

def drive (now : Nat) (draws : Draws) (n : Nat) (w : Session)
    (signals : List (Call.Signal Response)) : Session :=
  signals.foldl (produce now draws n) w

theorem Reachable.drive (now : Nat) (draws : Draws) (n : Nat) {w : Session} (h : Reachable w)
    {signals : List (Call.Signal Response)} (hsig : ∀ signal ∈ signals, signal ≠ .cutOff) :
    Reachable (w.drive now draws n signals) := by
  induction signals generalizing w with
  | nil => exact h
  | cons signal signals ih =>
    exact ih (.produce now draws n signal h (hsig signal (List.mem_cons_self ..)))
      (fun s hs => hsig s (List.mem_cons_of_mem _ hs))

end Session

end ModelRegistry
