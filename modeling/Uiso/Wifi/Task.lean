/-
  Wifi/Task.lean --- `wifi_service.c`: the connection manager task, the event
  handlers that notify it and the SNTP sync timer it drives.

  WHAT IS MODELLED.  `wifi_task` is a loop around `xTaskNotifyWait`.  Every
  source of events (WLAN events, IP events, the sync timer, the task itself)
  ORs bits into one notification value; a wait returns the value and clears it,
  and one pass over the value runs a fixed sequence of if-blocks.  The pass is
  not atomic: events arrive between any two of its statements, and
  `uiso_sntp_request` in the middle of it can take seconds.  Each block is
  therefore a step of its own.

  THE STEP FUNCTION.  `step s a` runs one action: an event handler, a timer
  expiry, the first `vTaskSuspend(NULL)` of a client task, or the next block of
  `wifi_task`.  The label of a task step carries the outcome of
  `uiso_sntp_request`, which is arbitrary here.

  `lastEvent` is the only field the program does not have: the most recent WLAN
  connection event, for the statements about it.
-/
import Mathlib.Logic.Function.Basic
import Uiso.Foundation.Machine
import Uiso.Rtos.Kernel
import Uiso.Sntp.Types

set_option autoImplicit false

namespace Uiso.Wifi

open Uiso.Foundation
open Uiso.Rtos

/-! ## Notification bits -/

/-- `WIFI_PENDING_STATE` -/
def wifiPendingState : BitVec 32 := 1#32 <<< 0
/-- `WIFI_DISCONNECTED_STATE` -/
def wifiDisconnectedState : BitVec 32 := 1#32 <<< 1
/-- `WIFI_CONNECTING_STATE` -/
def wifiConnectingState : BitVec 32 := 1#32 <<< 2
/-- `WIFI_CONNECTED_STATE` -/
def wifiConnectedState : BitVec 32 := 1#32 <<< 3
/-- `WIFI_IP_ACQUIRED` -/
def wifiIpAcquired : BitVec 32 := 1#32 <<< 4
/-- `WIFI_IPV4_ACQUIRED` -/
def wifiIpv4Acquired : BitVec 32 := 1#32 <<< 5
/-- `WIFI_IPV6_ACQUIRED` -/
def wifiIpv6Acquired : BitVec 32 := 1#32 <<< 6
/-- `WIFI_IP_RELEASED` -/
def wifiIpReleased : BitVec 32 := 1#32 <<< 7
/-- `WIFI_IP_MASK` -/
def wifiIpMask : BitVec 32 :=
  wifiIpAcquired ||| wifiIpv4Acquired ||| wifiIpv6Acquired ||| wifiIpReleased
/-- `WIFI_NTP_SYNC_TIMER` -/
def wifiNtpSyncTimer : BitVec 32 := 1#32 <<< 8
/-- `WIFI_NTP_TIME_SYNCED` -/
def wifiNtpTimeSynced : BitVec 32 := 1#32 <<< 9

/-- `WIFI_NTP_SYNC_PERIOD`, in milliseconds. -/
def wifiNtpSyncPeriod : Nat := 12 * 3600 * 1000

/-- `configTICK_RATE_HZ` of the FreeRTOS configuration. -/
def configTickRateHz : Nat := 1000

/-- `enum wifi_connection_state_e`. -/
inductive ConnectionState where
  | initial
  | disconnected
  | connecting
  | connected
  deriving DecidableEq, Repr, Inhabited

/-- The value of the enumerator, which is also the bit its notification sets. -/
def ConnectionState.bits : ConnectionState → BitVec 32
  | .initial => 0#32
  | .disconnected => wifiDisconnectedState
  | .connecting => wifiConnectingState
  | .connected => wifiConnectedState

/-- `enum wifi_ip_acquired_state_e`. -/
inductive IpState where
  | notAcquired
  | acquired
  | v4Acquired
  | v6Acquired
  | released
  deriving DecidableEq, Repr, Inhabited

/-- The value of the enumerator. -/
def IpState.bits : IpState → BitVec 32
  | .notAcquired => 0#32
  | .acquired => wifiIpAcquired
  | .v4Acquired => (wifiIpAcquired ||| wifiIpv4Acquired) &&& wifiIpMask
  | .v6Acquired => (wifiIpAcquired ||| wifiIpv6Acquired) &&& wifiIpMask
  | .released => wifiIpReleased &&& wifiIpMask

/-! ## Events -/

/-- The WLAN events `CC3100_WlanEvtHdlr` distinguishes. -/
inductive WlanEvent where
  | connect
  | disconnect
  | smartConfigComplete
  | smartConfigStop
  | staConnected
  | staDisconnected
  | p2pDevFound
  | p2pNegReqReceived
  | connectionFailed
  | other
  deriving DecidableEq, Repr, Inhabited

/-- The events `CC3100_NetAppEvtHdlr` distinguishes. -/
inductive NetAppEvent where
  | ipv4Acquired
  | ipv6Acquired
  | ipLeased
  | ipReleased
  | other
  deriving DecidableEq, Repr, Inhabited

/-- The WLAN events that decide whether the station is connected. -/
inductive LinkEvent where
  | connect
  | disconnect
  | connectionFailed
  deriving DecidableEq, Repr, Inhabited

/-! ## State -/

/-- The statements of one pass of `wifi_task` over a notification value, in
source order. -/
inductive Block where
  | connected
  | stopTimer
  | suspendLwm2m
  | suspendMonitor
  | suspendMqtt
  | ipAcquired
  | ntpStop
  | ntpRequest
  | ntpRestart (reply : Sntp.Reply)
  | ntpNotify
  | ntpSynced
  deriving DecidableEq, Repr

/-- Where `wifi_task` is. -/
inductive Pc where
  /-- created, before its first assignment -/
  | entry
  /-- configuring the device, up to `sl_WlanConnect` -/
  | starting
  /-- in `xTaskNotifyWait` -/
  | waiting
  /-- in the pass over `value`, before the given statement -/
  | running (value : BitVec 32) (block : Block)
  deriving DecidableEq, Repr

/-- The tasks `wifi_task` suspends and resumes. -/
inductive Client where
  | lwm2m
  | monitor
  | mqtt
  deriving DecidableEq, Repr

/-- The state the wifi service works on. -/
structure State where
  pc : Pc
  /-- notification of `wifi_task_handle` -/
  notification : Notification
  /-- `wifi_status.connection` -/
  connection : ConnectionState
  /-- `wifi_status.ip` -/
  ip : IpState
  /-- `sntp_sync_timer`, created with auto-reload -/
  timer : Timer
  /-- `sntp_sync_state` -/
  synced : Bool
  /-- `user_task_handle`, `network_monitor_task_handle` and the MQTT task -/
  task : Client → Task
  /-- the most recent WLAN connection event -/
  lastEvent : Option LinkEvent

/-- The state `create_wifi_service_task` leaves once the scheduler starts. -/
def State.init : State where
  pc := .entry
  notification := .none
  connection := .initial
  ip := .notAcquired
  timer := ⟨false, 1000⟩
  synced := false
  task := fun _ => .created
  lastEvent := none

/-- `vTaskSuspend(handle)` on one of the clients. -/
def State.suspend (s : State) (c : Client) : State :=
  { s with task := Function.update s.task c (s.task c).suspend }

/-- `vTaskResume(handle)` on one of the clients. -/
def State.resume (s : State) (c : Client) : State :=
  { s with task := Function.update s.task c (s.task c).resume }

/-- `xTaskNotify(wifi_task_handle, bits, eSetBits)`. -/
def State.notify (s : State) (bits : BitVec 32) : State :=
  { s with notification := s.notification.setBits bits }

/-! ## Event handlers -/

/-- `CC3100_WlanEvtHdlr`.  Every event notifies, also those that leave
`wifi_status.connection` as it is. -/
def wlanEvtHdlr (s : State) (event : WlanEvent) : State :=
  let s := match event with
    | .connect =>
        { s with connection := .connected, lastEvent := some .connect }
    | .disconnect =>
        { s with connection := .disconnected, lastEvent := some .disconnect }
    | .connectionFailed =>
        { s with connection := .disconnected, lastEvent := some .connectionFailed }
    | _ => s
  s.notify (s.connection.bits ||| wifiPendingState)

/-- `CC3100_NetAppEvtHdlr`. -/
def netAppEvtHdlr (s : State) (event : NetAppEvent) : State :=
  let s := match event with
    | .ipv4Acquired => { s with ip := .v4Acquired }
    | .ipv6Acquired => { s with ip := .v6Acquired }
    | .ipReleased => { s with ip := .released }
    | _ => s
  s.notify (s.ip.bits ||| wifiPendingState)

/-- `sntp_sync_timer_callback`. -/
def sntpSyncTimerCallback (s : State) : State :=
  s.notify (wifiNtpSyncTimer ||| wifiPendingState)

/-! ## The pass -/

/-- The period armed after a request: the interval the server asked for, but at
least `WIFI_NTP_SYNC_PERIOD`, or 16 s after a failure. -/
def restartPeriod (reply : Sntp.Reply) : Nat :=
  if reply.rcode = .success then
    pdMsToTicks configTickRateHz
      (if reply.timeToNextSync < wifiNtpSyncPeriod then wifiNtpSyncPeriod
        else reply.timeToNextSync)
  else pdMsToTicks configTickRateHz (16 * 1000)

/-- What a statement of the pass over `value` does, apart from moving on. -/
def blockEffect (value : BitVec 32) (reply : Sntp.Reply) (s : State) : Block → State
  | .connected =>
      if test value ConnectionState.connected.bits then
        -- 5 s to the first sync, 16 s when the clock has been set before
        { s with timer := s.timer.changePeriod (if s.synced then 16 * 1000 else 5 * 1000) }
      else s
  | .stopTimer =>
      if test value ConnectionState.disconnected.bits && s.timer.active then
        { s with timer := s.timer.stop }
      else s
  | .suspendLwm2m => s.suspend .lwm2m
  | .suspendMonitor => s.suspend .monitor
  | .suspendMqtt => s.suspend .mqtt
  | .ipAcquired =>
      if test value (IpState.v4Acquired.bits ||| IpState.v6Acquired.bits) then
        s.resume .monitor
      else s
  | .ntpStop => if s.timer.active then { s with timer := s.timer.stop } else s
  | .ntpRequest => { s with synced := reply.synced }
  | .ntpRestart answer => { s with timer := s.timer.changePeriod (restartPeriod answer) }
  | .ntpNotify => s.notify (wifiNtpTimeSynced ||| wifiPendingState)
  | .ntpSynced => if test value wifiNtpTimeSynced then s.resume .lwm2m else s

/-- The statement after a statement; `none` when the pass is over. -/
def nextBlock (value : BitVec 32) (reply : Sntp.Reply) : Block → Option Block
  | .connected => some .stopTimer
  | .stopTimer =>
      if test value ConnectionState.disconnected.bits then some .suspendLwm2m
      else some .ipAcquired
  | .suspendLwm2m => some .suspendMonitor
  | .suspendMonitor => some .suspendMqtt
  | .suspendMqtt => some .ipAcquired
  | .ipAcquired => if test value wifiNtpSyncTimer then some .ntpStop else some .ntpSynced
  | .ntpStop => some .ntpRequest
  | .ntpRequest => some (.ntpRestart reply)
  | .ntpRestart answer => if answer.rcode = .success then some .ntpNotify else some .ntpSynced
  | .ntpNotify => some .ntpSynced
  | .ntpSynced => none

/-- Back to `xTaskNotifyWait(WIFI_PENDING_STATE, UINT32_MAX, ..)`. -/
def State.wait (s : State) : State :=
  { s with pc := .waiting, notification := s.notification.enterWait wifiPendingState }

/-- The next statement of `wifi_task`; `none` while it is blocked. -/
def wifiTask (s : State) (reply : Sntp.Reply) : Option State :=
  match s.pc with
  | .entry => some { s with pc := .starting, connection := .disconnected }
  | .starting => some { s with connection := .connecting }.wait
  | .waiting =>
      if s.notification.received then
        some { s with
          pc := .running s.notification.value .connected
          notification := s.notification.leaveWait (BitVec.allOnes 32) }
      else none
  | .running value block =>
      let s' := blockEffect value reply s block
      match nextBlock value reply block with
      | some next => some { s' with pc := .running value next }
      | none => some s'.wait

/-! ## The machine -/

/-- One action of the system. -/
inductive Action where
  /-- the SimpleLink driver delivers a WLAN event (`none`: a null pointer) -/
  | wlan (event : Option WlanEvent)
  /-- the SimpleLink driver delivers an IP event -/
  | netApp (event : NetAppEvent)
  /-- the sync timer expires -/
  | timerExpiry
  /-- a client task runs the `vTaskSuspend(NULL)` it starts with -/
  | taskStart (client : Client)
  /-- the wait of `wifi_task` times out -/
  | waitTimeout
  /-- `wifi_task` runs its next statement -/
  | task (reply : Sntp.Reply)
  deriving DecidableEq, Repr

/-- One step of the system. -/
def step (s : State) : Action → Option State
  | .wlan none => some s
  | .wlan (some event) => some (wlanEvtHdlr s event)
  | .netApp event => some (netAppEvtHdlr s event)
  | .timerExpiry => if s.timer.active then some (sntpSyncTimerCallback s) else none
  | .taskStart c =>
      if (s.task c).started || (s.task c).suspended then none
      else some { s with task := Function.update s.task c ⟨true, true⟩ }
  | .waitTimeout =>
      if s.pc = .waiting ∧ s.notification.received = false then some s.wait else none
  | .task reply => wifiTask s reply

/-- The wifi service as a machine. -/
def machine : Machine State Action := ⟨step⟩

end Uiso.Wifi
