import RenogyX10.Influx.Requests
import RenogyX10.Lib.Blocks
import RenogyX10.Post

set_option autoImplicit false

namespace RenogyX10.Influx

open Blocks Http
open Post (Target postOf)

def InfluxInfo.target (config : InfluxInfo) : Target where
  org := config.influxOrg
  database := config.influxDatabase
  hostname := config.influxHostname
  port := config.influxPort
  token := config.influxToken

/-- A value is posted, with one of these configurations. -/
def IsPost (fmt : FloatText) (configs : InfluxInfo → Prop) (reading : Reading)
    (message : Message) : Prop :=
  ∃ config, configs config ∧ message = postOf config.target (lineOf fmt config reading)

/-- The values are posted on the connection, and the server reads the posts. -/
def Serves (fmt : FloatText) (configs : InfluxInfo → Prop) (link : Link)
    (readings : List Reading) : Prop :=
  ∃ posts, List.Forall₂ (IsPost fmt configs) readings posts ∧ Delivered link.sent posts

theorem requestOf_bytes (config : InfluxInfo) (line : List UInt8) :
    requestOf config line = (postOf config.target line).bytes := by
  unfold requestOf
  exact (Post.postOf_bytes config.target line).symm

/-- The requests of a connection follow those of the one before it, and what is built goes
to the connection that is open. -/
def Apart (requests : List (List UInt8)) : List Link → Prop
  | [] => True
  | link :: older => ∃ items gap, Scattered (older.map Link.requests) items ∧
      requests = items ++ link.requests ++ gap ∧ (link.isOpen = true → gap = [])

theorem Apart.scattered {requests : List (List UInt8)} {links : List Link}
    (apart : Apart requests links) : Scattered (links.map Link.requests) requests := by
  cases links with
  | nil => exact .nil requests
  | cons link older =>
      obtain ⟨items, gap, before, rfl, _⟩ := apart
      exact .cons link.requests gap before

theorem Apart.onOpen {requests : List (List UInt8)} {links : List Link} {change : Link → Link}
    (same : ∀ link, (change link).requests = link.requests)
    (wasOpen : ∀ link, (change link).isOpen = true → link.isOpen = true)
    (apart : Apart requests links) : Apart requests (onOpen change links) := by
  cases links with
  | nil => trivial
  | cons link older =>
      obtain ⟨items, gap, before, split, last⟩ := apart
      rw [Influx.onOpen]
      split_ifs with isOpen
      · refine ⟨items, gap, before, ?_, fun still => last (wasOpen link still)⟩
        rw [same]
        exact split
      · exact ⟨items, gap, before, split, last⟩

theorem Apart.build {requests : List (List UInt8)} {links : List Link} (request : List UInt8)
    (apart : Apart requests links) :
    Apart (requests ++ [request]) (Influx.onOpen (.build request) links) := by
  cases links with
  | nil => trivial
  | cons link older =>
      obtain ⟨items, gap, before, rfl, last⟩ := apart
      rw [Influx.onOpen]
      split_ifs with isOpen
      · obtain rfl := last isOpen
        refine ⟨items, [], before, ?_, fun _ => rfl⟩
        simp only [Link.build, List.append_nil, List.append_assoc]
      · refine ⟨items, gap ++ [request], before, List.append_assoc _ _ _, fun still => ?_⟩
        exact absurd still isOpen

theorem linksOf_apart (trace : List Event) : Apart (requestsOf trace) (linksOf trace) := by
  induction trace with
  | nil => trivial
  | cons event older ih =>
      cases event with
      | socket sck =>
          refine ⟨requestsOf older, [], ih.scattered, ?_, fun _ => rfl⟩
          rw [List.append_nil, List.append_nil]
          rfl
      | build request => exact ih.build request
      | send sck bytes => exact ih.onOpen (fun _ => rfl) fun _ still => still
      | close sck => exact ih.onOpen (fun _ => rfl) fun _ still => nomatch still

section Connection

variable {fmt : FloatText} {configs : InfluxInfo → Prop}

theorem exists_posts (clean : ∀ config, configs config → config.target.Clean)
    {readings : List Reading} {requests : List (List UInt8)}
    (built : List.Forall₂ (IsRequest fmt configs) readings requests) :
    ∃ posts, List.Forall₂ (IsPost fmt configs) readings posts ∧
      posts.flatMap Message.bytes = requests.flatten ∧ ∀ m ∈ posts, m.WellFormed := by
  induction built with
  | nil => exact ⟨[], .nil, rfl, nofun⟩
  | @cons reading request readings requests isRequest _ ih =>
      obtain ⟨posts, each, bytes, formed⟩ := ih
      obtain ⟨config, given, rfl⟩ := isRequest
      refine ⟨postOf config.target (lineOf fmt config reading) :: posts,
        .cons ⟨config, given, rfl⟩ each, ?_, ?_⟩
      · rw [List.flatMap_cons, List.flatten_cons, bytes, requestOf_bytes]
      · rw [List.forall_mem_cons]
        exact ⟨Post.postOf_wellFormed (clean config given) _, formed⟩

theorem serves_of_requests (clean : ∀ config, configs config → config.target.Clean) {link : Link}
    {readings : List Reading} (built : List.Forall₂ (IsRequest fmt configs) readings link.requests)
    (sent : link.sent <+: link.requests.flatten) : Serves fmt configs link readings := by
  obtain ⟨posts, each, bytes, formed⟩ := exists_posts clean built
  refine ⟨posts, each, delivered formed ?_⟩
  rw [bytes]
  exact sent

/-- What was requested reaches the servers in blocks, one for each connection. -/
theorem Partly.served {readings : List Reading} {h : Client}
    (clean : ∀ config, configs config → config.target.Clean) (streamed : Streamed h.trace)
    (partly : Partly fmt configs readings h) :
    ∃ blocks, Scattered blocks readings ∧
      List.Forall₂ (Serves fmt configs) (linksOf h.trace) blocks := by
  obtain ⟨first, isFirst, requested⟩ := partly
  obtain ⟨blocks, scattered, each⟩ := (linksOf_apart h.trace).scattered.related requested.built
  refine ⟨blocks, scattered.later isFirst, ?_⟩
  have own : List.Forall₂ (fun link block => List.Forall₂ (IsRequest fmt configs) block link.requests)
      (linksOf h.trace) blocks := (List.forall₂_map_right_iff.mp each).flip
  apply ((List.forall₂_and_left _ _).mpr ⟨streamed.sent, own⟩).imp
  exact fun link block ⟨sent, built⟩ => serves_of_requests clean built sent

end Connection

end RenogyX10.Influx
