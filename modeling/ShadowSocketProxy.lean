import ShadowSocketProxy.Deletion.Exclusion
import ShadowSocketProxy.Forwarding
import ShadowSocketProxy.Flows.Interruptions
import ShadowSocketProxy.ControlService.Readiness
import ShadowSocketProxy.ControlService.Agreement
import ShadowSocketProxy.HostProxy.Activation
import ShadowSocketProxy.ControlService.Logs
import ShadowSocketProxy.Alone.Frame
import ShadowSocketProxy.ControlService.ReadPaths
import ShadowSocketProxy.Deletion.Releases
import ShadowSocketProxy.Flows.Bypass
import ShadowSocketProxy.ControlService.RoundTrip
import ShadowSocketProxy.TlsRustls.Pin
import ShadowSocketProxy.Deletion.Capacity
import ShadowSocketProxy.ControlService.Double
import ShadowSocketProxy.HostProxy.Stops
import ShadowSocketProxy.HostProxy.Destinations
import ShadowSocketProxy.ControlService.Teardown
import ShadowSocketProxy.HostProxy.WindowsConditional.Pairing
import ShadowSocketProxy.Concurrent.Slots
import ShadowSocketProxy.HostProxy.Maintenance
