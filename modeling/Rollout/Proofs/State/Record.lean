import Rollout.Proofs.Value.Respelled
import Rollout.State.Record

/-!
# Proofs/State/Record — desired states are read back

Every type of a desired state has its rules: which fields may be left out, and with which value.  A
rule names the default itself, so that a reader that fills in another one is not faithful.  Each
reader is faithful by those of its fields, up to `desired_state_reads_back` at the top.
-/

namespace Rollout

/-! ## Scalars -/

namespace Faithful

theorem text : Faithful .text Value.source.text Eq where
  refl _ := rfl
  reads _ _ h := h ▸ rfl

theorem bool : Faithful .bool Value.source.bool Eq where
  refl _ := rfl
  reads _ _ h := h ▸ rfl

theorem word32 : Faithful (fun n => .nat n.toNat) Value.source.word32 Eq where
  refl _ := rfl
  reads n _ h := by
    have hread : Value.source.nat (.nat n.toNat) = pure n.toNat := rfl
    rw [← h, Source.word32, hread, pure_bind, if_pos n.toNat_lt]
    simp

theorem word16 : Faithful (fun n => .nat n.toNat) Value.source.word16 Eq where
  refl _ := rfl
  reads n _ h := by
    have hread : Value.source.nat (.nat n.toNat) = pure n.toNat := rfl
    rw [← h, Source.word16, hread, pure_bind, if_pos n.toNat_lt]
    simp

end Faithful

theorem Mode.faithful : Faithful (fun m => .text m.word) (Mode.read Value.source) Eq where
  refl _ := rfl
  reads m _ h := by
    cases m <;> exact h ▸ rfl

/-! ## Settings -/

/-- The fields of the settings. -/
def Globals.rules : List FieldRule := [
  { name := "max_conn", default := some (.nat 2000) },
  { name := "timeout_connect", default := some (.text "5s") },
  { name := "timeout_client", default := some (.text "50s") },
  { name := "timeout_server", default := some (.text "50s") },
  { name := "ssl_redirect", default := some (.bool true) },
  { name := "bind_http", default := some (.text ":80") },
  { name := "bind_https", default := some (.text ":443") },
  { name := "modsecurity_endpoints", respelling := RespelledList Eq, default := some (.list []) }]

theorem Globals.faithful :
    Faithful Globals.toValue (Globals.read Value.source) (RespelledRecord Globals.rules) where
  refl g := .refl (by simp [rules, Faithful.text.list.refl, Value.texts])
  reads g v h := by
    obtain ⟨known, hrecord, hknown⟩ := h.exists_known fieldNames rfl
      (by decide +kernel) (by simp)
    have hmaxConn : Source.withDefault known "max_conn" Value.source.word32 2000
        = pure g.maxConn := hknown.withDefault_eq .word32 (by simp [rules]) (by simp)
    have hconnect : Source.withDefault known "timeout_connect" Value.source.text "5s"
        = pure g.timeoutConnect := hknown.withDefault_eq .text (by simp [rules]) (by simp)
    have hclient : Source.withDefault known "timeout_client" Value.source.text "50s"
        = pure g.timeoutClient := hknown.withDefault_eq .text (by simp [rules]) (by simp)
    have hserver : Source.withDefault known "timeout_server" Value.source.text "50s"
        = pure g.timeoutServer := hknown.withDefault_eq .text (by simp [rules]) (by simp)
    have hredirect : Source.withDefault known "ssl_redirect" Value.source.bool true
        = pure g.sslRedirect := hknown.withDefault_eq .bool (by simp [rules]) (by simp)
    have hhttp : Source.withDefault known "bind_http" Value.source.text ":80"
        = pure g.bindHttp := hknown.withDefault_eq .text (by simp [rules]) (by simp)
    have hhttps : Source.withDefault known "bind_https" Value.source.text ":443"
        = pure g.bindHttps := hknown.withDefault_eq .text (by simp [rules]) (by simp)
    have hagents : Source.withDefault known "modsecurity_endpoints"
        (Value.source.each Value.source.text) [] = pure g.modsecurityEndpoints :=
      hknown.withDefault_eq (.list .text) (by simp [rules]) (by simp [Value.texts])
    simp only [Globals.read, hrecord, hmaxConn, hconnect, hclient, hserver, hredirect, hhttp,
      hhttps, hagents, pure_bind]

/-! ## Servers and backends -/

/-- The fields of a server. -/
def Server.rules : List FieldRule := [
  { name := "name", default := some (.text "") },
  { name := "ip" },
  { name := "port" },
  { name := "weight", default := some (.nat 1) },
  { name := "enabled", default := some (.bool true) }]

theorem Server.faithful :
    Faithful Server.toValue (Server.read Value.source) (RespelledRecord Server.rules) where
  refl s := .refl (by simp [rules])
  reads s v h := by
    obtain ⟨known, hrecord, hknown⟩ := h.exists_known
      ["name", "ip", "port", "weight", "enabled"] rfl (by simp) (by simp)
    have hname : Source.withDefault known "name" Value.source.text "" = pure s.name :=
      hknown.withDefault_eq .text (by simp [rules]) (by simp)
    have hip : Source.required known "ip" Value.source.text = pure s.ip :=
      hknown.required_eq .text (by simp [rules]) (by simp)
    have hport : Source.required known "port" Value.source.word16 = pure s.port :=
      hknown.required_eq .word16 (by simp [rules]) (by simp)
    have hweight : Source.withDefault known "weight" Value.source.word32 1 = pure s.weight :=
      hknown.withDefault_eq .word32 (by simp [rules]) (by simp)
    have henabled : Source.withDefault known "enabled" Value.source.bool true = pure s.enabled :=
      hknown.withDefault_eq .bool (by simp [rules]) (by simp)
    simp only [Server.read, hrecord, hname, hip, hport, hweight, henabled, pure_bind]

/-- The fields of a backend. -/
def Backend.rules : List FieldRule := [
  { name := "id" },
  { name := "mode", default := some (.text "http") },
  { name := "balance", default := some (.text "roundrobin") },
  { name := "endpoints", respelling := RespelledList (RespelledRecord Server.rules),
    default := some (.list []) }]

theorem Backend.faithful :
    Faithful Backend.toValue (Backend.read Value.source) (RespelledRecord Backend.rules) where
  refl b := .refl (by simp [rules, Server.faithful.list.refl])
  reads b v h := by
    obtain ⟨known, hrecord, hknown⟩ := h.exists_known
      ["id", "mode", "balance", "endpoints"] rfl (by simp) (by simp)
    have hid : Source.required known "id" Value.source.text = pure b.id :=
      hknown.required_eq .text (by simp [rules]) (by simp)
    have hmode : Source.withDefault known "mode" (Mode.read Value.source) .http = pure b.mode :=
      hknown.withDefault_eq Mode.faithful (by simp [rules, Mode.word]) (by simp)
    have hbalance : Source.withDefault known "balance" Value.source.text "roundrobin"
        = pure b.balance := hknown.withDefault_eq .text (by simp [rules]) (by simp)
    have hservers : Source.withDefault known "endpoints"
        (Value.source.each (Server.read Value.source)) [] = pure b.servers :=
      hknown.withDefault_eq Server.faithful.list (by simp [rules]) (by simp)
    simp only [Backend.read, hrecord, hid, hmode, hbalance, hservers, pure_bind]

/-! ## Hosts -/

/-- The fields of a route. -/
def Route.rules : List FieldRule := [{ name := "path" }, { name := "backend" }]

theorem Route.faithful :
    Faithful Route.toValue (Route.read Value.source) (RespelledRecord Route.rules) where
  refl r := .refl (by simp [rules])
  reads r v h := by
    obtain ⟨known, hrecord, hknown⟩ := h.exists_known
      ["path", "backend"] rfl (by simp) (by simp)
    have hpath : Source.required known "path" Value.source.text = pure r.path :=
      hknown.required_eq .text (by simp [rules]) (by simp)
    have hbackend : Source.required known "backend" Value.source.text = pure r.backend :=
      hknown.required_eq .text (by simp [rules]) (by simp)
    simp only [Route.read, hrecord, hpath, hbackend, pure_bind]

/-- The fields of a certificate. -/
def Host.certificateRules : List FieldRule := [{ name := "cert_file" }]

theorem Host.certificate_faithful : Faithful Host.certificateValue
    (Host.readCertificate Value.source) (RespelledRecord Host.certificateRules) where
  refl f := .refl (by simp [certificateRules])
  reads f v h := by
    obtain ⟨known, hrecord, hknown⟩ := h.exists_known
      ["cert_file"] rfl (by simp) (by simp)
    have hfile : Source.required known "cert_file" Value.source.text = pure f :=
      hknown.required_eq .text (by simp [certificateRules]) (by simp)
    simp only [readCertificate, hrecord, hfile, pure_bind]

/-- The fields of a host. -/
def Host.rules : List FieldRule := [
  { name := "hostname" },
  { name := "paths", respelling := RespelledList (RespelledRecord Route.rules),
    default := some (.list []) },
  { name := "tls", respelling := RespelledRecord Host.certificateRules },
  { name := "ssl_passthrough", default := some (.bool false) }]

theorem Host.faithful :
    Faithful Host.toValue (Host.read Value.source) (RespelledRecord Host.rules) where
  refl h := .refl (by
    cases h.certificate <;>
      simp [rules, Route.faithful.list.refl, Host.certificate_faithful.refl, Value.optionalField])
  reads h v hv := by
    obtain ⟨known, hrecord, hknown⟩ := hv.exists_known
      ["hostname", "paths", "tls", "ssl_passthrough"] rfl (by simp)
      (by cases h.certificate <;> simp [Value.optionalField])
    have hhostname : Source.required known "hostname" Value.source.text = pure h.hostname :=
      hknown.required_eq .text (by simp [rules]) (by simp)
    have hroutes : Source.withDefault known "paths" (Value.source.each (Route.read Value.source)) []
        = pure h.routes := hknown.withDefault_eq Route.faithful.list (by simp [rules]) (by simp)
    have hcertificate : Source.maybe Value.source known "tls" (Host.readCertificate Value.source)
        = pure h.certificate :=
      hknown.maybe_eq Host.certificate_faithful rfl (by simp [rules])
        (by rintro f hf; simp [hf, Value.optionalField]) (by intro hf; simp [hf, Value.optionalField])
    have hpassthrough : Source.withDefault known "ssl_passthrough" Value.source.bool false
        = pure h.passthrough := hknown.withDefault_eq .bool (by simp [rules]) (by simp)
    simp only [Host.read, hrecord, hhostname, hroutes, hcertificate, hpassthrough, pure_bind]

/-! ## Desired states -/

/-- The fields of a desired state. -/
def DesiredState.rules : List FieldRule := [
  { name := "global", respelling := RespelledRecord Globals.rules,
    default := some (Globals.toValue {}) },
  { name := "hosts", respelling := RespelledList (RespelledRecord Host.rules),
    default := some (.list []) },
  { name := "backends", respelling := RespelledList (RespelledRecord Backend.rules),
    default := some (.list []) },
  { name := "default_backend" }]

theorem DesiredState.faithful : Faithful DesiredState.toValue (DesiredState.read Value.source)
    (RespelledRecord DesiredState.rules) where
  refl d := .refl (by
    cases d.defaultBackend <;>
      simp [rules, Globals.faithful.refl, Host.faithful.list.refl, Backend.faithful.list.refl,
        Value.optionalField])
  reads d v h := by
    obtain ⟨known, hrecord, hknown⟩ := h.exists_known
      ["global", "hosts", "backends", "default_backend"] rfl (by simp)
      (by cases d.defaultBackend <;> simp [Value.optionalField])
    have hglobals : Source.withDefault known "global" (Globals.read Value.source) {}
        = pure d.globals := hknown.withDefault_eq Globals.faithful (by simp [rules]) (by simp)
    have hhosts : Source.withDefault known "hosts" (Value.source.each (Host.read Value.source)) []
        = pure d.hosts := hknown.withDefault_eq Host.faithful.list (by simp [rules]) (by simp)
    have hbackends : Source.withDefault known "backends"
        (Value.source.each (Backend.read Value.source)) [] = pure d.backends :=
      hknown.withDefault_eq Backend.faithful.list (by simp [rules]) (by simp)
    have hdefault : Source.maybe Value.source known "default_backend" Value.source.text
        = pure d.defaultBackend :=
      hknown.maybe_eq .text rfl (by simp [rules])
        (by intro f hf; simp [hf, Value.optionalField]) (by intro hf; simp [hf, Value.optionalField])
    simp only [DesiredState.read, hrecord, hglobals, hhosts, hbackends, hdefault, pure_bind]

/-- **A desired state reads back**, as it was written, and also after fields with their default values
were left out, the fields of records put in another order, and unknown ones added: in the state, its
settings, its hosts with their routes and certificates, and its backends with their servers. -/
theorem desired_state_reads_back (d : DesiredState) :
    DesiredState.ofValue? d.toValue = some d ∧
      ∀ v, RespelledRecord DesiredState.rules d.toValue v → DesiredState.ofValue? v = some d := by
  have hreads : ∀ v, RespelledRecord DesiredState.rules d.toValue v →
      DesiredState.ofValue? v = some d := fun v h => by
    rw [DesiredState.ofValue?, DesiredState.faithful.reads d v h]
    rfl
  exact ⟨hreads _ (DesiredState.faithful.refl d), hreads⟩

/-- A server of its own weight. -/
def weightedServer : Server := { ip := "10.0.0.1", port := 80, weight := 3 }

/-- A state of that server, in one backend. -/
def weightedState : DesiredState := { backends := [{ id := "app", servers := [weightedServer] }] }

/-- **The state written by hand**: what goes without saying is left out, the names come in another
order, and a comment was added. -/
theorem desired_state_reads_back_handwritten :
    DesiredState.ofValue? weightedState.toValue = some weightedState ∧
      DesiredState.ofValue? (.record [
        ("comment", .text "one server"),
        ("backends", .list [.record [
          ("endpoints", .list [.record [
            ("weight", .nat 3), ("ip", .text "10.0.0.1"), ("port", .nat 80)]]),
          ("id", .text "app")]])]) = some weightedState := by
  have hserver : RespelledRecord Server.rules weightedServer.toValue
      (.record [("weight", .nat 3), ("ip", .text "10.0.0.1"), ("port", .nat 80)]) := by
    have hkept : Kept Server.rules
        [("name", .text ""), ("ip", .text "10.0.0.1"), ("port", .nat 80), ("weight", .nat 3),
          ("enabled", .bool true)]
        [("ip", .text "10.0.0.1"), ("port", .nat 80), ("weight", .nat 3)] :=
      .drop (.head _) rfl (.keep (.tail _ (.head _)) rfl (.keep (.tail _ (.tail _ (.head _))) rfl
        (.keep (.tail _ (.tail _ (.tail _ (.head _)))) rfl
          (.drop (.tail _ (.tail _ (.tail _ (.tail _ (.head _))))) rfl .nil))))
    exact .mk hkept (by simp) (List.perm_append_singleton ..).symm
  have hbackend : Kept Backend.rules
      [("id", .text "app"), ("mode", .text "http"), ("balance", .text "roundrobin"),
        ("endpoints", .list [weightedServer.toValue])]
      [("id", .text "app"), ("endpoints", .list [.record [
        ("weight", .nat 3), ("ip", .text "10.0.0.1"), ("port", .nat 80)]])] :=
    .keep (.head _) rfl (.drop (.tail _ (.head _)) rfl (.drop (.tail _ (.tail _ (.head _))) rfl
      (.keep (.tail _ (.tail _ (.tail _ (.head _)))) (.mk (.cons hserver .nil)) .nil)))
  have hstate : Kept DesiredState.rules
      [("global", Globals.toValue {}), ("hosts", .list []),
        ("backends", .list (weightedState.backends.map Backend.toValue))]
      [("backends", .list [.record [
        ("endpoints", .list [.record [
          ("weight", .nat 3), ("ip", .text "10.0.0.1"), ("port", .nat 80)]]),
        ("id", .text "app")]])] :=
    .drop (.head _) rfl (.drop (.tail _ (.head _)) rfl
      (.keep (.tail _ (.tail _ (.head _)))
        (.mk (.cons (.mk hbackend (by simp) (.swap ..)) .nil)) .nil))
  exact ⟨(desired_state_reads_back weightedState).1,
    (desired_state_reads_back weightedState).2 _
      (.mk hstate (by simp [DesiredState.rules]) (.swap ..))⟩

end Rollout
