import Sntp.Model.Deployment

/-! # Where the messages of a deployment come from

Each message of the network can be traced to the calls that sent it and what it answers, and each call
of a client's history to a past snapshot that bore it out. Nothing of this depends on what the clients
and servers do with the messages.
-/

namespace Sntp.Provenance

variable {Client Server : Type}

/-- An entry of a history stays where it is. -/
theorem entry_of_grown {α : Type} {history longer : List α} (grown : history <+: longer)
    {index : ℕ} {entry : α} (found : history[index]? = some entry) : longer[index]? = some entry := by
  obtain ⟨later, rfl⟩ := grown
  obtain ⟨bound, rfl⟩ := List.getElem?_eq_some_iff.mp found
  rw [List.getElem?_append_left bound, found]

section History

variable (deployment : Deployment Client Server)

/-- By the given true time the hosts had sent the message and what it answers. -/
def Traceable (history : Client → List (ℤ × Event)) : Message Client Server → ℤ → Prop
  | .request client index pkt addr source, latest =>
    (∃ time sockfd, time ≤ latest ∧
      (history client)[index]? = some (time, .sendto sockfd pkt addr true)) ∧
      (deployment.clients client).addrs source
  | .reply server received arrival transmit sent, latest =>
    Traceable history received arrival ∧ arrival ≤ transmit ∧ transmit ≤ latest ∧
      ∃ state next, serverIteration (deployment.servers server).byteOrder state
        (.datagram (deployment.datagram received) (deployment.serverReading server arrival)
          (deployment.serverReading server transmit)) = some (next, some sent)
  | .forged _ _, _ => True

/-- One snapshot is a past one of another. -/
structure Past (past present : Snapshot Client Server) : Prop where
  time : past.time ≤ present.time
  history : ∀ client, past.history client <+: present.history client
  soup : past.soup <+: present.soup

theorem Past.refl (snapshot : Snapshot Client Server) : Past snapshot snapshot :=
  ⟨le_rfl, fun _ => List.prefix_rfl, List.prefix_rfl⟩

theorem Past.trans {first second third : Snapshot Client Server} (before : Past first second)
    (after : Past second third) : Past first third :=
  ⟨before.time.trans after.time, fun client => (before.history client).trans (after.history client),
    before.soup.trans after.soup⟩

variable {deployment}

/-- What could be traced can be traced later. -/
theorem Traceable.later {history longer : Client → List (ℤ × Event)} {latest later : ℤ}
    {message : Message Client Server} (traceable : Traceable deployment history message latest)
    (grown : ∀ client, history client <+: longer client) (order : latest ≤ later) :
    Traceable deployment longer message later := by
  induction message generalizing latest later with
  | request client index pkt addr source =>
    obtain ⟨⟨time, sockfd, past, entry⟩, own⟩ := traceable
    exact ⟨⟨time, sockfd, past.trans order, entry_of_grown (grown client) entry⟩, own⟩
  | reply server received arrival transmit sent ih =>
    obtain ⟨before, turn, past, answered⟩ := traceable
    exact ⟨ih before le_rfl, turn, past.trans order, answered⟩
  | forged => trivial

/-- What holds of every snapshot: histories are parts of runs made in the past, and messages are
traceable. -/
structure Valid (deployment : Deployment Client Server) (snapshot : Snapshot Client Server) :
    Prop where
  run : ∀ client, (snapshot.history client).map Prod.snd <+: (deployment.clients client).run
  past : ∀ client, ∀ entry ∈ snapshot.history client, entry.1 ≤ snapshot.time
  soup : ∀ message ∈ snapshot.soup, Traceable deployment snapshot.history message snapshot.time
  pending : ∀ server message arrival,
    (snapshot.servers server).pending = some (message, arrival) → arrival ≤ snapshot.time ∧
      Traceable deployment snapshot.history message arrival

theorem valid_initial (time : ℤ) (servers : Server → ServerState) :
    Valid deployment (.initial time servers) where
  run := fun _ => List.nil_prefix
  past := fun _ _ member => absurd member List.not_mem_nil
  soup := fun _ member => absurd member List.not_mem_nil
  pending := fun _ _ _ none => absurd none (by simp [Snapshot.initial])

/-- What a call sends can be traced to it. -/
private theorem traceable_message {client : Client} {event : Event} {source : SockaddrIn}
    (own : (deployment.clients client).addrs source) {history : Client → List (ℤ × Event)}
    {index : ℕ} {time : ℤ} (made : (history client)[index]? = some (time, event))
    {message : Message Client Server} (sent : message ∈ event.message client index source) :
    Traceable deployment history message time := by
  cases event with
  | sendto sockfd pkt addr success =>
    cases success with
    | false => exact absurd sent List.not_mem_nil
    | true =>
      obtain rfl := List.mem_singleton.mp sent
      exact ⟨⟨time, sockfd, le_rfl, made⟩, own⟩
  | _ => exact absurd sent List.not_mem_nil

end History

section Steps

variable [DecidableEq Client] [DecidableEq Server] {deployment : Deployment Client Server}
  {before after snapshot : Snapshot Client Server}

/-- What a step does to a client's history: nothing, or the call it makes. -/
theorem history_step (step : DeploymentStep deployment before after) (client : Client) :
    after.history client = before.history client ∨
      ∃ event, after.history client = before.history client ++ [(before.time, event)] ∧
        (before.history client).map Prod.snd ++ [event] <+: (deployment.clients client).run ∧
        BornOut deployment before client event := by
  cases step with
  | elapse | failure | receive | answer | forge => exact .inl rfl
  | call caller event source made bornOut own =>
    by_cases same : client = caller
    · obtain rfl := same
      exact .inr ⟨event, Function.update_self .., made, bornOut⟩
    · exact .inl (Function.update_of_ne same ..)

theorem past_step (step : DeploymentStep deployment before after) : Past before after where
  time := by
    cases step with
    | elapse later order => exact order
    | call | failure | receive | answer | forge => exact le_rfl
  history := by
    intro client
    rcases history_step step client with same | ⟨event, extended, -⟩
    · rw [same]
    · rw [extended]
      exact List.prefix_append ..
  soup := by
    cases step with
    | elapse | failure | receive => exact List.prefix_rfl
    | call | answer | forge => exact List.prefix_append ..

/-- Every step keeps snapshots valid. -/
theorem valid_step (step : DeploymentStep deployment before after)
    (valid : Valid deployment before) : Valid deployment after where
  run := by
    intro client
    rcases history_step step client with same | ⟨event, extended, made, -⟩
    · rw [same]
      exact valid.run client
    · rw [extended, List.map_append]
      exact made
  past := by
    intro client entry member
    have order := (past_step step).time
    rcases history_step step client with same | ⟨event, extended, -⟩
    · rw [same] at member
      exact (valid.past client entry member).trans order
    · rw [extended] at member
      rcases List.mem_append.mp member with old | new
      · exact (valid.past client entry old).trans order
      · rw [List.mem_singleton.mp new]
        exact order
  soup := by
    have grown := past_step step
    have old (message) (member : message ∈ before.soup) :
        Traceable deployment after.history message after.time :=
      (valid.soup message member).later grown.history grown.time
    cases step with
    | elapse | failure | receive => exact old
    | call client event source made bornOut own =>
      intro message member
      rcases List.mem_append.mp member with past | new
      · exact old message past
      · refine traceable_message own ?_ new
        simp [Snapshot.call]
    | answer server pending turn =>
      intro message member
      rcases List.mem_append.mp member with past | new
      · exact old message past
      · obtain ⟨reply, sent, rfl⟩ := List.mem_map.mp new
        obtain rfl := Option.mem_toList.mp sent
        obtain ⟨arrived, traceable⟩ := valid.pending server _ _ pending
        exact ⟨traceable, arrived, le_rfl, _, _, turn⟩
    | forge destination datagram =>
      intro message member
      rcases List.mem_append.mp member with past | new
      · exact old message past
      · obtain rfl := List.mem_singleton.mp new
        trivial
  pending := by
    have grown := past_step step
    have old (server message arrival)
        (pending : (before.servers server).pending = some (message, arrival)) :
        arrival ≤ after.time ∧ Traceable deployment after.history message arrival := by
      obtain ⟨arrived, traceable⟩ := valid.pending server message arrival pending
      exact ⟨arrived.trans grown.time, traceable.later grown.history le_rfl⟩
    intro server message arrival pending
    cases step with
    | elapse | call | forge => exact old server message arrival pending
    | failure turner idle turn =>
      by_cases same : server = turner
      · obtain rfl := same
        simp at pending
      · exact old server message arrival (by simpa [same] using pending)
    | receive turner received member reached idle =>
      by_cases same : server = turner
      · obtain rfl := same
        simp only [Function.update_self, Option.some.injEq, Prod.mk.injEq] at pending
        obtain ⟨rfl, rfl⟩ := pending
        exact ⟨le_rfl, valid.soup received member⟩
      · exact old server message arrival (by simpa [same] using pending)
    | answer turner answered turn =>
      by_cases same : server = turner
      · obtain rfl := same
        simp at pending
      · exact old server message arrival (by simpa [same] using pending)

theorem valid_of_arises (arises : Arises deployment snapshot) : Valid deployment snapshot := by
  obtain ⟨time, servers, path⟩ := arises
  induction path with
  | refl => exact valid_initial time servers
  | tail _ step ih => exact valid_step step ih

/-- Every entry of a history is a call made in a past snapshot that bore it out. -/
theorem exists_call (arises : Arises deployment snapshot) {client : Client} {index : ℕ} {time : ℤ}
    {event : Event} (entry : (snapshot.history client)[index]? = some (time, event)) :
    ∃ past, Valid deployment past ∧ Past past snapshot ∧ past.time = time ∧
      past.history client = (snapshot.history client).take index ∧
      BornOut deployment past client event := by
  obtain ⟨start, servers, path⟩ := arises
  induction path with
  | refl => simp [Snapshot.initial] at entry
  | @tail before after path step ih =>
    have onward := past_step step
    rcases history_step step client with same | ⟨newest, extended, -, bornOut⟩
    · rw [same] at entry ⊢
      obtain ⟨past, valid, passed, rest⟩ := ih entry
      exact ⟨past, valid, passed.trans onward, rest⟩
    · rw [extended] at entry ⊢
      rcases lt_or_ge index (before.history client).length with old | new
      · rw [List.getElem?_append_left old] at entry
        rw [List.take_append_of_le_length old.le]
        obtain ⟨past, valid, passed, rest⟩ := ih entry
        exact ⟨past, valid, passed.trans onward, rest⟩
      · obtain ⟨bound, found⟩ := List.getElem?_eq_some_iff.mp entry
        have last : index = (before.history client).length := by
          simp only [List.length_append, List.length_singleton] at bound
          omega
        subst last
        simp only [List.getElem_concat_length, Prod.mk.injEq] at found
        obtain ⟨rfl, rfl⟩ := found
        exact ⟨before, valid_of_arises ⟨start, servers, path⟩, onward, rfl, by simp, bornOut⟩

theorem arises_step {next : Snapshot Client Server} (arises : Arises deployment snapshot)
    (step : DeploymentStep deployment snapshot next) : Arises deployment next := by
  obtain ⟨time, servers, path⟩ := arises
  exact ⟨time, servers, path.tail step⟩

/-- Calls that the clock and the network bear out can be made one after the other. -/
theorem arises_calls (arises : Arises deployment snapshot) (client : Client) {source : SockaddrIn}
    (own : (deployment.clients client).addrs source) (events : List Event)
    (run : (snapshot.history client).map Prod.snd ++ events <+: (deployment.clients client).run)
    (bornOut : ∀ event ∈ events, BornOut deployment snapshot client event) :
    Arises deployment (events.foldl (·.call client source) snapshot) := by
  induction events generalizing snapshot with
  | nil => exact arises
  | cons event rest ih =>
    have split : (snapshot.history client).map Prod.snd ++ event :: rest =
        ((snapshot.history client).map Prod.snd ++ [event]) ++ rest := by simp
    rw [split] at run
    have step : DeploymentStep deployment snapshot (snapshot.call client source event) :=
      .call client event source ((List.prefix_append ..).trans run)
        (bornOut event List.mem_cons_self) own
    refine ih (arises_step arises step) (by simpa [Snapshot.call] using run) fun other member => ?_
    have before := bornOut other (List.mem_cons_of_mem _ member)
    cases other with
    | recvfrom sockfd datagram =>
      cases datagram with
      | none => trivial
      | some datagram =>
        obtain ⟨message, sent, rest⟩ := before
        exact ⟨message, List.mem_append_left _ sent, rest⟩
    | gettimeofday => exact before
    | _ => trivial

end Steps

end Sntp.Provenance
