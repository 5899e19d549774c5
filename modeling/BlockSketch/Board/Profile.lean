/-!
What a board offers: its pins with what each can do, and its serial ports and buses.
-/

namespace BlockSketch

structure SerialPort where
  name : String
  rx : String
  tx : String
  deriving DecidableEq, Repr

structure SpiBus where
  name : String
  mosi : String
  miso : String
  sck : String
  deriving DecidableEq, Repr

structure TwoWireBus where
  name : String
  sda : String
  scl : String
  deriving DecidableEq, Repr

/-- The description of a board. The digital pins include the analogue ones where the board lets them
be used so. -/
structure BoardProfile where
  name : String
  description : String
  /-- The name of the board in the build tools. -/
  fqbn : String
  analog : List String
  digital : List String
  pwm : List String
  serial : List SerialPort
  spi : List SpiBus
  twoWire : List TwoWireBus
  builtinLed : String
  interrupt : List String
  deriving DecidableEq, Repr

namespace BoardProfile

def isDigital (p : BoardProfile) (pin : String) : Bool := p.digital.contains pin

def isAnalog (p : BoardProfile) (pin : String) : Bool := p.analog.contains pin

def isPwm (p : BoardProfile) (pin : String) : Bool := p.pwm.contains pin

def isInterrupt (p : BoardProfile) (pin : String) : Bool := p.interrupt.contains pin

def hasPin (p : BoardProfile) (pin : String) : Bool := p.isDigital pin || p.isAnalog pin

def serialPort? (p : BoardProfile) (name : String) : Option SerialPort :=
  p.serial.find? (fun port => port.name = name)

end BoardProfile

def serialSpeeds : List Nat :=
  [300, 600, 1200, 2400, 4800, 9600, 14400, 19200, 28800, 31250, 38400, 57600, 115200]

end BlockSketch
