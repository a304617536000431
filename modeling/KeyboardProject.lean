import KeyboardProject.Session.Loss
import KeyboardProject.Session.Duplex
import KeyboardProject.Wire.Agreement
import KeyboardProject.Wire.Tag
import KeyboardProject.Debugger.Debounced
import KeyboardProject.Debugger.Fault
import KeyboardProject.HostSim.Validation
import KeyboardProject.HostSim.Args
import KeyboardProject.HostSim.Attempts
import KeyboardProject.FeatherFw.Build
import KeyboardProject.Sim.Order
import KeyboardProject.Sim.Jitter
import KeyboardProject.Sim.Exchange
import KeyboardProject.Session.Acks
import KeyboardProject.Session.Isolation
import KeyboardProject.Session.Refinement
import KeyboardProject.Session.WarmWake
import KeyboardProject.Sim.Retry
import KeyboardProject.Wire.Errors
import KeyboardProject.FeatherFw.Memory
import KeyboardProject.Debugger.Log
import KeyboardProject.Radio.Link
import KeyboardProject.HostSim.Main
import KeyboardProject.Session.ColdStart
import KeyboardProject.Debugger.Lcd
import KeyboardProject.Debugger.Pins
import KeyboardProject.FeatherFw.Main
import KeyboardProject.Radio.Build
import KeyboardProject.Session.Channel
