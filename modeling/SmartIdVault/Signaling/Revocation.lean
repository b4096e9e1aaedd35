import SmartIdVault.Lib.Sha256
import SmartIdVault.Signaling.Steps

/-! Revoked devices.  A revocation is looked up when a socket connects and sweeps the sockets that
are there; the hourly cleanup and the lookup itself forget it after a day.  All of them use the same
bound: at `expiry` itself the device is still revoked. -/

namespace SmartIdVault.Signaling

structure RevokeConfig where
  revokeSecret : Option Utf16 := none
  /-- `createHmac('sha256', secret).update(deviceId).digest('hex')`. -/
  hmacSha256 : Utf16 → Utf16 → Utf16 := fun _ _ => []

/-- A `POST /revoke`; `deviceId` is `none` where `JSON.parse` or the destructuring throws. -/
structure RevokeRequest where
  authorization : Option Utf16 := none
  deviceId : Option JsVal

structure Refusal where
  status : Nat
  error : String
  deriving DecidableEq, Repr

/-- The checks of the handler, which lead to the device that it revokes.  `timingSafeEqual` throws
for buffers of two lengths, into the handler's `catch`. -/
def RevokeRequest.check (cfg : RevokeConfig) (req : RevokeRequest) : Except Refusal Utf16 :=
  let secret := cfg.revokeSecret.filter (· ≠ [])
  let authHeader := req.authorization.getD []
  if secret.isSome ∧ authHeader = [] then .error ⟨401, "Missing authorization header"⟩
  else
    match req.deviceId with
    | none => .error ⟨400, "Invalid JSON body"⟩
    | some (.prim (.str deviceId)) =>
      if deviceId = [] then .error ⟨400, "Missing or invalid deviceId"⟩
      else
        match secret with
        | none => .ok deviceId
        | some secret =>
          let expected := utf16 "Bearer " ++ cfg.hmacSha256 secret deviceId
          if authHeader.length ≠ expected.length then .error ⟨401, "Invalid authorization"⟩
          else if (Utf8.textEncode authHeader).length ≠ (Utf8.textEncode expected).length then
            .error ⟨400, "Invalid JSON body"⟩
          else if Utf8.textEncode authHeader ≠ Utf8.textEncode expected then
            .error ⟨401, "Invalid authorization"⟩
          else .ok deviceId
    | some _ => .error ⟨400, "Missing or invalid deviceId"⟩

theorem RevokeRequest.ne_nil_of_check {cfg : RevokeConfig} {req : RevokeRequest}
    {deviceId : Utf16} (h : req.check cfg = .ok deviceId) : deviceId ≠ [] := by
  unfold check at h
  simp only at h
  split at h
  · cases h
  split at h
  · cases h
  · split at h
    · cases h
    rename_i hne
    split at h
    · cases h
      exact hne
    split at h
    · cases h
    split at h
    · cases h
    split at h
    · cases h
    cases h
    exact hne
  · cases h

theorem JsVal.truthy_str {s : Utf16} (h : s ≠ []) : (JsVal.str s).truthy = true := by
  cases s with
  | nil => contradiction
  | cons c cs => rfl

theorem JsVal.eq_str_of_key {v : JsVal} {s : Utf16} (h : v.key = .str s) : v = .str s := by
  cases v with
  | prim k => exact congrArg JsVal.prim h
  | arr | obj => cases h

namespace Server

variable {cfg : Config} {rcfg : RevokeConfig}

def postRevoke (rcfg : RevokeConfig) (s : Server) (req : RevokeRequest) (now : Nat) :
    Server × Except Refusal Utf16 :=
  match req.check rcfg with
  | .error refusal => (s, .error refusal)
  | .ok deviceId => (s.revoke deviceId now, .ok deviceId)

/-- A request that is refused changes nothing, and one that is accepted is a step. -/
theorem postRevoke_step {s : Server} (hs : s.crashed = false) (req : RevokeRequest) (now : Nat) :
    match (postRevoke rcfg s req now).2 with
    | .error _ => (postRevoke rcfg s req now).1 = s
    | .ok deviceId =>
      deviceId ≠ [] ∧ step cfg s (.revoke deviceId now) = some (postRevoke rcfg s req now).1 := by
  unfold postRevoke
  cases hcheck : req.check rcfg with
  | error refusal => rfl
  | ok deviceId => exact ⟨RevokeRequest.ne_nil_of_check hcheck, by simp [step, hs]⟩

/-- A revocation comes from a request that passes the checks. -/
def Event.Accepted (rcfg : RevokeConfig) : Event → Prop
  | .revoke deviceId _ => ∃ req : RevokeRequest, req.check rcfg = .ok deviceId
  | _ => True

/-- The time at which the handler asks for it. -/
def Event.time : Event → Option Nat
  | .connection _ now | .turnCredentials _ now | .revoke _ now | .tick now => some now
  | .message .. | .disconnect _ | .timeout _ => none

/-- All of the events came by the time `now`. -/
def By (es : List Event) (now : Nat) : Prop := ∀ u ∈ es.filterMap Event.time, u ≤ now

/-- A revocation of the device came at most a day before. -/
def RevokedAt (es : List Event) (deviceId : Utf16) (now : Nat) : Prop :=
  ∃ t, .revoke deviceId t ∈ es ∧ now ≤ t + revocationTtlMs

/-! ### What leaves the revocations alone -/

/-- The two states agree on the revocations, and no socket has come. -/
structure Calm (s t : Server) : Prop where
  revokedDevices : t.revokedDevices = s.revokedDevices
  connected : ∀ x, t.isConnected x = true → s.isConnected x = true
  handshake : ∀ x, t.handshake x = s.handshake x

theorem Calm.of_sockets {s t : Server} (hr : t.revokedDevices = s.revokedDevices)
    (hs : t.sockets = s.sockets) : Calm s t where
  revokedDevices := hr
  connected x h := by rwa [isConnected, hs] at h
  handshake x := by simp only [Server.handshake, hs]

theorem Calm.trans {s t u : Server} (h : Calm s t) (h' : Calm t u) : Calm s u :=
  ⟨h'.revokedDevices.trans h.revokedDevices, fun x hx => h.connected x (h'.connected x hx),
    fun x => (h'.handshake x).trans (h.handshake x)⟩

theorem calm_disconnect (s : Server) (x : SocketId) : Calm s (s.disconnect x) :=
  ⟨rfl, fun y hy => ((isConnected_disconnect s x y).mp hy).1, handshake_disconnect s x⟩

theorem calm_drop (s : Server) (x : SocketId) (msg : ServerMessage) :
    Calm s ((s.emit x msg).disconnect x) := by
  have hemit : Calm s (s.emit x msg) := .of_sockets rfl rfl
  exact hemit.trans (calm_disconnect _ x)

theorem calm_registerRoom (s : Server) (x : SocketId) (data : RegisterRoom) :
    Calm s (s.registerRoom x data) := by
  unfold registerRoom
  cases checkSas data.sasCode with
  | throws | invalid => exact .of_sockets rfl rfl
  | valid text =>
    simp only
    split
    · exact .of_sockets rfl rfl
    split
    · exact .of_sockets rfl rfl
    split
    · exact .of_sockets rfl rfl
    · unfold found
      split <;> exact .of_sockets rfl rfl

theorem calm_joinRoom (s : Server) (x : SocketId) (sasCode : JsVal) :
    Calm s (s.joinRoom cfg x sasCode) := by
  unfold joinRoom
  split
  · exact .of_sockets rfl rfl
  · exact .of_sockets rfl rfl
  · split
    · exact calm_drop s x _
    · simp only
      split
      · exact calm_drop s x _
      · exact .of_sockets rfl rfl

theorem calm_receive (s : Server) (x : SocketId) (msg : ClientMessage) :
    Calm s (s.receive cfg x msg) := by
  cases msg with
  | registerRoom data =>
    cases data with
    | none => exact .of_sockets rfl rfl
    | some data => exact calm_registerRoom s x data
  | joinRoom sasCode => exact calm_joinRoom s x sasCode
  | relay kind sasCode payload =>
    simp only [receive, relay]
    split <;> exact .of_sockets rfl rfl

/-- The time of an event that looks at the revocations. -/
def Event.revocationTime : Event → Option Nat
  | .connection _ now | .revoke _ now | .tick now => some now
  | .turnCredentials .. | .message .. | .disconnect _ | .timeout _ => none

theorem calm_step {s t : Server} {e : Event} (he : e.revocationTime = none)
    (h : step cfg s e = some t) : Calm s t := by
  unfold step at h
  split at h
  · contradiction
  cases e with
  | connection handshake now => cases he
  | revoke deviceId now => cases he
  | tick now => cases he
  | message x msg =>
    simp only [Option.ite_none_right_eq_some, Option.some.injEq] at h
    exact h.2 ▸ calm_receive s x msg
  | disconnect x =>
    simp only [Option.ite_none_right_eq_some, Option.some.injEq] at h
    exact h.2 ▸ calm_disconnect s x
  | timeout roomId =>
    simp only at h
    split at h
    · cases h
      exact .of_sockets rfl rfl
    · contradiction
  | turnCredentials roomId now =>
    cases h
    unfold turnCredentials
    split <;> exact .of_sockets rfl rfl

/-! ### The three paths -/

/-- The revocations of `t` are those of `s` without some that have expired. -/
def Forgets (s t : Server) (now : Nat) : Prop :=
  ∀ k, t.revokedDevices k = s.revokedDevices k ∨
    t.revokedDevices k = none ∧ ∀ expiry, s.revokedDevices k = some expiry → expiry < now

/-- `isDeviceRevoked` says yes. -/
def Revoked (s : Server) (k : Key) (now : Nat) : Prop :=
  ∃ expiry, s.revokedDevices k = some expiry ∧ expiry ≠ 0 ∧ now ≤ expiry

theorem isDeviceRevoked_of_revoked {s : Server} {k : Key} {now : Nat} (h : s.Revoked k now) :
    s.isDeviceRevoked k now = (s, true) := by
  obtain ⟨expiry, hk, hzero, hle⟩ := h
  simp only [isDeviceRevoked, hk, if_neg hzero, if_neg (Nat.not_lt.mpr hle)]

theorem isDeviceRevoked_of_not {s : Server} {k : Key} {now : Nat} (h : ¬s.Revoked k now) :
    ∃ t, s.isDeviceRevoked k now = (t, false) ∧ t.sockets = s.sockets ∧ Forgets s t now := by
  unfold isDeviceRevoked
  cases hk : s.revokedDevices k with
  | none => exact ⟨s, rfl, rfl, fun _ => .inl rfl⟩
  | some expiry =>
    simp only
    split
    · exact ⟨s, rfl, rfl, fun _ => .inl rfl⟩
    rename_i hzero
    split
    · rename_i hlt
      refine ⟨_, rfl, rfl, fun k' => ?_⟩
      by_cases heq : k' = k
      · subst heq
        refine .inr ⟨Function.update_self .., fun expiry' h' => ?_⟩
        obtain rfl := Option.some.inj (hk.symm.trans h')
        exact hlt
      · exact .inl (Function.update_of_ne heq ..)
    · rename_i hle
      exact absurd ⟨expiry, hk, hzero, Nat.le_of_not_lt hle⟩ h

theorem connection_of_revoked {s : Server} {h : Handshake} {now : Nat}
    (htruthy : h.deviceId.truthy = true) (hr : s.Revoked h.deviceId.key now) :
    s.connection h now =
      ((s.addSocket h).emit s.sockets.length (.error "Device revoked")).disconnect
        s.sockets.length := by
  have hlookup := isDeviceRevoked_of_revoked (s := s.addSocket h) hr
  simp only [connection, htruthy, if_true, hlookup]

theorem connection_of_not {s : Server} {h : Handshake} {now : Nat}
    (hr : ¬(h.deviceId.truthy = true ∧ s.Revoked h.deviceId.key now)) :
    (s.connection h now).sockets = (s.addSocket h).sockets ∧
      Forgets s (s.connection h now) now := by
  by_cases htruthy : h.deviceId.truthy = true
  · have hnot : ¬(s.addSocket h).Revoked h.deviceId.key now :=
      fun hrevoked => hr ⟨htruthy, hrevoked⟩
    obtain ⟨t, hlookup, hsockets, hforgets⟩ := isDeviceRevoked_of_not hnot
    simp only [connection, htruthy, if_true, hlookup]
    exact ⟨hsockets, hforgets⟩
  · simp only [connection, htruthy]
    exact ⟨rfl, fun _ => .inl rfl⟩

theorem isConnected_congr {s t : Server} (h : t.sockets = s.sockets) (x : SocketId) :
    t.isConnected x = s.isConnected x ∧ t.handshake x = s.handshake x := by
  simp only [isConnected, handshake, h, and_self]

theorem handshake_addSocket_self (s : Server) (h : Handshake) :
    (s.addSocket h).handshake s.sockets.length = h := by
  simp [handshake, addSocket]

theorem isConnected_addSocket_iff (s : Server) (h : Handshake) (x : SocketId) :
    (s.addSocket h).isConnected x = true ↔ s.isConnected x = true ∨ x = s.sockets.length := by
  by_cases hx : x < s.sockets.length
  · rw [isConnected_addSocket s h hx]
    exact ⟨.inl, fun h => h.resolve_right hx.ne⟩
  · have hold : s.sockets[x]? = none := List.getElem?_eq_none (Nat.le_of_not_lt hx)
    have hnew : (s.addSocket h).sockets[x]? =
        [({ handshake := h } : Socket)][x - s.sockets.length]? :=
      List.getElem?_append_right (Nat.le_of_not_lt hx)
    have hlast : x = s.sockets.length ↔ x - s.sockets.length = 0 := by
      rw [Nat.sub_eq_zero_iff_le]
      exact ⟨Nat.le_of_eq, fun h => Nat.le_antisymm h (Nat.le_of_not_lt hx)⟩
    rw [isConnected, isConnected, hold, hnew, hlast]
    cases x - s.sockets.length with
    | zero => simp
    | succ n => simp

/-- A socket that connects stays unless its device is revoked. -/
theorem isConnected_connection (s : Server) (h : Handshake) (now : Nat) (x : SocketId) :
    (s.connection h now).isConnected x = true ↔ s.isConnected x = true ∨ x = s.sockets.length ∧
      ¬(h.deviceId.truthy = true ∧ s.Revoked h.deviceId.key now) := by
  have hnew : s.isConnected x = true → x ≠ s.sockets.length :=
    fun hx heq => absurd (lt_of_isConnected hx) (heq ▸ Nat.lt_irrefl x)
  by_cases hr : h.deviceId.truthy = true ∧ s.Revoked h.deviceId.key now
  · have hemit := (isConnected_congr (s := s.addSocket h) (t := (s.addSocket h).emit
      s.sockets.length (.error "Device revoked")) rfl x).1
    rw [connection_of_revoked hr.1 hr.2, isConnected_disconnect, hemit, isConnected_addSocket_iff]
    tauto
  · rw [(isConnected_congr (connection_of_not hr).1 x).1, isConnected_addSocket_iff]
    tauto

theorem handshake_connection (s : Server) (h : Handshake) (now : Nat) (x : SocketId) :
    (s.connection h now).handshake x = (s.addSocket h).handshake x := by
  by_cases hr : h.deviceId.truthy = true ∧ s.Revoked h.deviceId.key now
  · rw [connection_of_revoked hr.1 hr.2, handshake_disconnect]
    rfl
  · exact (isConnected_congr (connection_of_not hr).1 x).2

theorem length_connection (s : Server) (h : Handshake) (now : Nat) :
    (s.connection h now).sockets.length = s.sockets.length + 1 := by
  have hadd : (s.addSocket h).sockets.length = s.sockets.length + 1 := by simp [addSocket]
  by_cases hr : h.deviceId.truthy = true ∧ s.Revoked h.deviceId.key now
  · rw [connection_of_revoked hr.1 hr.2, ← hadd]
    exact List.length_modify ..
  · rw [(connection_of_not hr).1, hadd]

theorem connection_forgets (s : Server) (h : Handshake) (now : Nat) :
    Forgets s (s.connection h now) now := by
  by_cases hr : h.deviceId.truthy = true ∧ s.Revoked h.deviceId.key now
  · rw [connection_of_revoked hr.1 hr.2]
    exact fun _ => .inl rfl
  · exact (connection_of_not hr).2

theorem tick_forgets (s : Server) (now : Nat) : Forgets s (s.tick now) now := by
  intro k
  simp only [tick]
  cases s.revokedDevices k with
  | none => exact .inl rfl
  | some expiry =>
    simp only
    split
    · rename_i hlt
      refine .inr ⟨rfl, fun expiry' h => ?_⟩
      obtain rfl := Option.some.inj h
      exact hlt
    · exact .inl rfl

/-- One round of the sweep over the sockets. -/
def sweep (deviceId : Utf16) (s : Server) (x : SocketId) : Server :=
  if s.isConnected x && (s.handshake x).deviceId = .str deviceId then
    (s.emit x (.error "Device revoked")).disconnect x
  else s

theorem foldl_sweep (deviceId : Utf16) (xs : List SocketId) (s : Server) :
    (xs.foldl (sweep deviceId) s).revokedDevices = s.revokedDevices ∧
      (∀ x, (xs.foldl (sweep deviceId) s).isConnected x = true ↔
        s.isConnected x = true ∧ (x ∈ xs → (s.handshake x).deviceId ≠ .str deviceId)) ∧
      (∀ x, (xs.foldl (sweep deviceId) s).handshake x = s.handshake x) ∧
      (xs.foldl (sweep deviceId) s).sockets.length = s.sockets.length := by
  induction xs generalizing s with
  | nil => simp
  | cons y xs ih =>
    obtain ⟨hrevoked, hconnected, hhandshake, hlength⟩ := ih (sweep deviceId s y)
    have hcalm : Calm s (sweep deviceId s y) := by
      unfold sweep
      split
      · exact calm_drop s y _
      · exact .of_sockets rfl rfl
    have hround_length : (sweep deviceId s y).sockets.length = s.sockets.length := by
      unfold sweep
      split
      · exact List.length_modify ..
      · rfl
    refine ⟨hrevoked.trans hcalm.revokedDevices, fun x => ?_,
      fun x => (hhandshake x).trans (hcalm.handshake x), hlength.trans hround_length⟩
    rw [List.foldl_cons, hconnected, hcalm.handshake, List.mem_cons]
    have hround : (sweep deviceId s y).isConnected x = true ↔
        s.isConnected x = true ∧ (x = y → (s.handshake x).deviceId ≠ .str deviceId) := by
      unfold sweep
      split
      · rename_i hdevice
        have hemit := (isConnected_congr (s := s) (t := s.emit y (.error "Device revoked")) rfl x).1
        rw [isConnected_disconnect, hemit]
        simp only [Bool.and_eq_true, decide_eq_true_eq] at hdevice
        refine and_congr_right fun hx => ⟨fun hne heq => absurd heq hne, ?_⟩
        rintro hne rfl
        exact hne rfl hdevice.2
      · rename_i hother
        refine ⟨fun hx => ⟨hx, ?_⟩, And.left⟩
        rintro rfl hdevice
        simp [hx, hdevice] at hother
    rw [hround]
    tauto

/-- A revocation disconnects the sockets of its device and no others. -/
theorem revoke_spec (s : Server) (deviceId : Utf16) (now : Nat) :
    (s.revoke deviceId now).revokedDevices =
        Function.update s.revokedDevices (.str deviceId) (some (now + revocationTtlMs)) ∧
      (∀ x, (s.revoke deviceId now).isConnected x = true ↔
        s.isConnected x = true ∧ (s.handshake x).deviceId ≠ .str deviceId) ∧
      (∀ x, (s.revoke deviceId now).handshake x = s.handshake x) ∧
      (s.revoke deviceId now).sockets.length = s.sockets.length := by
  obtain ⟨hrevoked, hconnected, hsame⟩ := foldl_sweep deviceId (List.range s.sockets.length)
    { s with
      revokedDevices :=
        Function.update s.revokedDevices (.str deviceId) (some (now + revocationTtlMs)) }
  refine ⟨hrevoked, fun x => (hconnected x).trans ?_, hsame⟩
  refine and_congr_right fun hx => ?_
  have hmem : x ∈ List.range s.sockets.length := List.mem_range.mpr (lt_of_isConnected hx)
  exact ⟨fun h => h hmem, fun h _ => h⟩

/-! ### Runs -/

/-- In a state that `es` leads to: every revocation comes from a request of the last day before it
expires; while one is in force, it is in the map and no socket of its device is connected. -/
structure Enforced (es : List Event) (s : Server) : Prop where
  sound : ∀ k expiry, s.revokedDevices k = some expiry →
    ∃ d t, k = .str d ∧ .revoke d t ∈ es ∧ expiry = t + revocationTtlMs
  kept : ∀ d now, By es now → RevokedAt es d now →
    ∃ expiry, s.revokedDevices (.str d) = some expiry ∧ now ≤ expiry
  gone : ∀ d now, By es now → RevokedAt es d now →
    ∀ x, s.isConnected x = true → (s.handshake x).deviceId ≠ .str d

theorem enforced_nil : Enforced [] {} where
  sound k expiry h := by cases h
  kept d now _ h := by
    obtain ⟨t, hmem, -⟩ := h
    cases hmem
  gone d now _ h := by
    obtain ⟨t, hmem, -⟩ := h
    cases hmem

theorem By.mono {es : List Event} {e : Event} {now : Nat} (h : By (es ++ [e]) now) : By es now :=
  fun u hu => h u (by rw [List.filterMap_append]; exact List.mem_append_left _ hu)

theorem By.last {es : List Event} {e : Event} {now u : Nat} (h : By (es ++ [e]) now)
    (he : e.time = some u) : u ≤ now :=
  h u (by rw [List.filterMap_append]; exact List.mem_append_right _ (by simp [he]))

theorem RevokedAt.of_append {es : List Event} {e : Event} {d : Utf16} {now : Nat}
    (h : RevokedAt (es ++ [e]) d now) (he : ∀ t, e ≠ .revoke d t) : RevokedAt es d now := by
  obtain ⟨t, hmem, hle⟩ := h
  rcases List.mem_append.mp hmem with hmem | hmem
  · exact ⟨t, hmem, hle⟩
  · exact absurd (List.mem_singleton.mp hmem).symm (he t)

variable {es : List Event} {e : Event} {s t : Server} {u : Nat}

/-- Entries that have expired may go, and sockets of revoked devices may not come. -/
theorem Enforced.of_forgets (h : Enforced es s) (he : ∀ d t, e ≠ .revoke d t)
    (hby : ∀ now, By (es ++ [e]) now → u ≤ now) (hforgets : Forgets s t u)
    (hconnected : ∀ x, t.isConnected x = true →
      s.isConnected x = true ∧ t.handshake x = s.handshake x ∨
        ∀ d now, (t.handshake x).deviceId = .str d → RevokedAt es d now →
          ¬s.Revoked (.str d) u) : Enforced (es ++ [e]) t where
  sound k expiry hk := by
    rcases hforgets k with heq | ⟨hnone, -⟩
    · obtain ⟨d, t, hd, hmem, hexpiry⟩ := h.sound k expiry (heq ▸ hk)
      exact ⟨d, t, hd, List.mem_append_left _ hmem, hexpiry⟩
    · rw [hnone] at hk
      cases hk
  kept d now hnow hd := by
    obtain ⟨expiry, hk, hle⟩ := h.kept d now hnow.mono (hd.of_append (he d))
    rcases hforgets (.str d) with heq | ⟨-, hexpired⟩
    · exact ⟨expiry, heq.trans hk, hle⟩
    · exact absurd ((hexpired expiry hk).trans_le (hby now hnow)) (Nat.not_lt.mpr hle)
  gone d now hnow hd x hx hdevice := by
    have hold := hd.of_append (he d)
    rcases hconnected x hx with ⟨hx, hhandshake⟩ | hnew
    · exact h.gone d now hnow.mono hold x hx (hhandshake ▸ hdevice)
    · obtain ⟨expiry, hk, hle⟩ := h.kept d now hnow.mono hold
      refine hnew d now hdevice hold ⟨expiry, hk, ?_, (hby now hnow).trans hle⟩
      obtain ⟨d', t', -, -, rfl⟩ := h.sound _ _ hk
      simp [revocationTtlMs]

theorem Enforced.calm (h : Enforced es s) (he : ∀ d t, e ≠ .revoke d t) (hcalm : Calm s t) :
    Enforced (es ++ [e]) t :=
  h.of_forgets (u := 0) he (fun _ _ => Nat.zero_le _)
    (fun k => .inl (congrFun hcalm.revokedDevices k))
    fun x hx => .inl ⟨hcalm.connected x hx, hcalm.handshake x⟩

theorem Enforced.connection (h : Enforced es s) (hne : ∀ d t, .revoke d t ∈ es → d ≠ [])
    (hs : Handshake) (now : Nat) :
    Enforced (es ++ [.connection hs now]) (s.connection hs now) := by
  refine h.of_forgets (fun d t heq => by cases heq) (fun _ hnow => hnow.last rfl)
    (connection_forgets s hs now) fun x hx => ?_
  rcases (isConnected_connection s hs now x).mp hx with hold | ⟨rfl, hadmitted⟩
  · refine .inl ⟨hold, ?_⟩
    rw [handshake_connection, handshake_addSocket s hs (lt_of_isConnected hold)]
  · refine .inr fun d now' hdevice hrevoked hin => hadmitted ?_
    rw [handshake_connection, handshake_addSocket_self] at hdevice
    obtain ⟨t, hmem, -⟩ := hrevoked
    rw [hdevice]
    exact ⟨JsVal.truthy_str (hne d t hmem), hin⟩

theorem Enforced.tick (h : Enforced es s) (now : Nat) :
    Enforced (es ++ [.tick now]) (s.tick now) :=
  h.of_forgets (fun d t heq => by cases heq) (fun _ hnow => hnow.last rfl) (tick_forgets s now)
    fun _ hx => .inl ⟨hx, rfl⟩

theorem Enforced.revoke (h : Enforced es s) (deviceId : Utf16) (now : Nat)
    (htimes : By es now) :
    Enforced (es ++ [.revoke deviceId now]) (s.revoke deviceId now) := by
  obtain ⟨hrevoked, hconnected, hhandshake, -⟩ := revoke_spec s deviceId now
  have hother {d : Utf16} {u : Nat} (hd : RevokedAt (es ++ [.revoke deviceId now]) d u)
      (hne : d ≠ deviceId) : RevokedAt es d u :=
    hd.of_append fun t heq => hne (by cases heq; rfl)
  refine ⟨fun k expiry hk => ?_, fun d u hu hd => ?_, fun d u hu hd x hx hdevice => ?_⟩
  · rw [hrevoked] at hk
    by_cases heq : k = .str deviceId
    · rw [heq, Function.update_self] at hk
      cases hk
      exact ⟨deviceId, now, heq, by simp, rfl⟩
    · rw [Function.update_of_ne heq] at hk
      obtain ⟨d, t, hd, hmem, hexpiry⟩ := h.sound k expiry hk
      exact ⟨d, t, hd, List.mem_append_left _ hmem, hexpiry⟩
  · rw [hrevoked]
    by_cases heq : d = deviceId
    · subst heq
      rw [Function.update_self]
      refine ⟨_, rfl, ?_⟩
      -- an earlier revocation of the device ends earlier
      obtain ⟨t, hmem, hle⟩ := hd
      have ht : t ≤ now := by
        rcases List.mem_append.mp hmem with hmem | hmem
        · exact htimes t (List.mem_filterMap.mpr ⟨_, hmem, rfl⟩)
        · cases List.mem_singleton.mp hmem
          exact Nat.le_refl _
      omega
    · rw [Function.update_of_ne (by simpa using heq)]
      exact h.kept d u hu.mono (hother hd heq)
  · obtain ⟨hold, hne⟩ := (hconnected x).mp hx
    rw [hhandshake] at hdevice
    refine h.gone d u hu.mono (hother hd ?_) x hold hdevice
    rintro rfl
    exact hne hdevice

theorem Enforced.step (h : Enforced es s) (hne : ∀ d t, .revoke d t ∈ es → d ≠ [])
    (htimes : ∀ u ∈ e.time, By es u) (hs : step cfg s e = some t) : Enforced (es ++ [e]) t := by
  have hcrashed := crashed_of_step hs
  cases e with
  | connection hs' now =>
    rw [Server.step, hcrashed] at hs
    cases hs
    exact h.connection hne hs' now
  | revoke deviceId now =>
    rw [Server.step, hcrashed] at hs
    cases hs
    exact h.revoke deviceId now (htimes now rfl)
  | tick now =>
    rw [Server.step, hcrashed] at hs
    cases hs
    exact h.tick now
  | message x msg => exact h.calm (fun _ _ heq => by cases heq) (calm_step rfl hs)
  | disconnect x => exact h.calm (fun _ _ heq => by cases heq) (calm_step rfl hs)
  | timeout roomId => exact h.calm (fun _ _ heq => by cases heq) (calm_step rfl hs)
  | turnCredentials roomId now => exact h.calm (fun _ _ heq => by cases heq) (calm_step rfl hs)

theorem Enforced.run {s : Server} (hrun : Run cfg {} es s)
    (haccepted : ∀ e ∈ es, e.Accepted rcfg)
    (htimes : (es.filterMap Event.time).Pairwise (· ≤ ·)) : Enforced es s := by
  refine hrun.history enforced_nil ?_
  rintro pre e post u v rfl hu hstep
  refine hu.step (fun d t hmem => ?_) (fun now hnow past hpast => ?_) hstep
  · obtain ⟨req, hcheck⟩ := haccepted _ (List.mem_append_left _ hmem)
    exact RevokeRequest.ne_nil_of_check hcheck
  · rw [List.filterMap_append, List.filterMap_cons_some hnow] at htimes
    exact (List.pairwise_append.mp htimes).2.2 past hpast now (List.mem_cons_self ..)

/-- The socket was connected, or came, and is not connected after the step. -/
def Drops (s t : Server) (x : SocketId) : Prop :=
  x < t.sockets.length ∧ t.isConnected x = false ∧
    (s.isConnected x = true ∨ s.sockets.length ≤ x)

theorem Enforced.drops_connection (h : Enforced es s) {hs : Handshake} {now : Nat} {x : SocketId}
    (hx : Drops s (s.connection hs now) x) :
    ∃ d t, ((s.connection hs now).handshake x).deviceId = .str d ∧
      .revoke d t ∈ es ++ [.connection hs now] ∧ now ≤ t + revocationTtlMs := by
  obtain ⟨hlt, hno, hcame⟩ := hx
  rw [length_connection] at hlt
  have hnot := mt (isConnected_connection s hs now x).mpr (Bool.eq_false_iff.mp hno)
  rw [not_or, not_and, not_not] at hnot
  have hlast : x = s.sockets.length :=
    Nat.le_antisymm (Nat.le_of_lt_succ hlt) (hcame.resolve_left hnot.1)
  obtain ⟨-, expiry, hk, -, hle⟩ := hnot.2 hlast
  obtain ⟨d, t, hd, hmem, rfl⟩ := h.sound _ _ hk
  refine ⟨d, t, ?_, List.mem_append_left _ hmem, hle⟩
  rw [hlast, handshake_connection, handshake_addSocket_self]
  exact JsVal.eq_str_of_key hd

theorem drops_revoke {deviceId : Utf16} {now : Nat} {x : SocketId}
    (hx : Drops s (s.revoke deviceId now) x) :
    ((s.revoke deviceId now).handshake x).deviceId = .str deviceId := by
  obtain ⟨hlt, hno, hwas⟩ := hx
  obtain ⟨-, hconnected, hhandshake, hlength⟩ := revoke_spec s deviceId now
  have hold := hwas.resolve_right (Nat.not_le.mpr (hlength ▸ hlt))
  have hnot := mt (hconnected x).mpr (Bool.eq_false_iff.mp hno)
  rw [not_and, not_not] at hnot
  rw [hhandshake]
  exact hnot hold

theorem Enforced.drops (h : Enforced es s) (hs : Server.step cfg s e = some t) {now : Nat}
    (hnow : e.revocationTime = some now) {x : SocketId} (hx : Drops s t x) :
    ∃ d t', (t.handshake x).deviceId = .str d ∧ .revoke d t' ∈ es ++ [e] ∧
      now ≤ t' + revocationTtlMs := by
  have hcrashed := crashed_of_step hs
  cases e with
  | connection hs' now' =>
    rw [Server.step, hcrashed] at hs
    cases hs
    cases hnow
    exact h.drops_connection hx
  | revoke deviceId now' =>
    rw [Server.step, hcrashed] at hs
    cases hs
    cases hnow
    exact ⟨deviceId, now, drops_revoke hx, by simp, Nat.le_add_right ..⟩
  | tick now' =>
    rw [Server.step, hcrashed] at hs
    cases hs
    obtain ⟨hlt, hno, hwas⟩ := hx
    have hold := hwas.resolve_right (Nat.not_le.mpr hlt)
    exact absurd hold (Bool.eq_false_iff.mp hno)
  | message | disconnect | timeout | turnCredentials => cases hnow

/-- While a revocation is in force, no socket of its device is connected.  A repeated revocation
never brings the end forward, and the sockets that a connection, a revocation or a cleanup
disconnects are those of devices that were revoked in the last day. -/
theorem revocation_enforced (rcfg : RevokeConfig) {s : Server} (hrun : Run cfg {} es s)
    (haccepted : ∀ e ∈ es, e.Accepted rcfg)
    (htimes : (es.filterMap Event.time).Pairwise (· ≤ ·)) :
    (∀ d t now, .revoke d t ∈ es → By es now → now ≤ t + revocationTtlMs →
      ∀ x, s.isConnected x = true → (s.handshake x).deviceId ≠ .str d) ∧
    ∀ pre e post u v, es = pre ++ e :: post → Run cfg {} pre u → step cfg u e = some v →
      (∀ d now, e = .revoke d now → ∀ expiry, u.revokedDevices (.str d) = some expiry →
        ∃ expiry', v.revokedDevices (.str d) = some expiry' ∧ expiry ≤ expiry') ∧
      ∀ now, e.revocationTime = some now → ∀ x, Drops u v x →
        ∃ d t, (v.handshake x).deviceId = .str d ∧ .revoke d t ∈ pre ++ [e] ∧
          now ≤ t + revocationTtlMs := by
  have h := Enforced.run hrun haccepted htimes
  refine ⟨fun d t now hmem hby hle => h.gone d now hby ⟨t, hmem, hle⟩, ?_⟩
  rintro pre e post u v rfl hpre hstep
  rw [List.filterMap_append] at htimes
  have hu := Enforced.run hpre (fun e he => haccepted e (List.mem_append_left _ he))
    (List.pairwise_append.mp htimes).1
  refine ⟨?_, fun now hnow x hx => hu.drops hstep hnow hx⟩
  rintro d now rfl expiry hexpiry
  obtain ⟨d', t, -, hmem, rfl⟩ := hu.sound _ _ hexpiry
  have ht : t ≤ now := (List.pairwise_append.mp htimes).2.2 t
    (List.mem_filterMap.mpr ⟨_, hmem, rfl⟩) now (by simp [Event.time])
  have hcrashed := crashed_of_step hstep
  rw [step, hcrashed] at hstep
  cases hstep
  rw [(revoke_spec u d now).1]
  exact ⟨_, Function.update_self .., Nat.add_le_add_right ht _⟩

def phone : Utf16 := utf16 "phone"

/-- The phone connects, is revoked, and connects again a day later. -/
def phoneEvents : List Event :=
  [.connection { deviceId := .str phone } 0, .revoke phone 10,
    .connection { deviceId := .str phone } (10 + revocationTtlMs)]

def phoneConfig : Config := { sha256 := Sha256.sha256 }

theorem phone_stays_out : ∃ s, Run phoneConfig {} phoneEvents s ∧
    ∀ x, s.isConnected x = true → (s.handshake x).deviceId ≠ .str phone := by
  have hexec : (Machine.exec (step phoneConfig) {} phoneEvents).isSome = true := by decide
  obtain ⟨s, hrun⟩ := Machine.exists_run_of_exec hexec
  refine ⟨s, hrun, ?_⟩
  have haccepted : ∀ e ∈ phoneEvents, e.Accepted {} := by
    intro e he
    simp only [phoneEvents, List.mem_cons, List.not_mem_nil, or_false] at he
    rcases he with rfl | rfl | rfl
    · trivial
    · exact ⟨{ deviceId := some (.str phone) }, rfl⟩
    · trivial
  have hby : By phoneEvents (10 + revocationTtlMs) := by
    unfold By
    decide
  exact (revocation_enforced {} hrun haccepted (by decide)).1 phone 10 (10 + revocationTtlMs)
    (by decide) hby (Nat.le_refl _)

end Server

end SmartIdVault.Signaling
