import BlockSketch.Board.Profile

/-!
The boards that sketches are made for.
-/

namespace BlockSketch

inductive Board where
  | uno
  | nano
  | mega
  | proMini
  | esp32
  | esp8266
  deriving DecidableEq, Repr, Inhabited

namespace Board

def all : List Board := [uno, nano, mega, proMini, esp32, esp8266]

def key : Board → String
  | uno => "arduino_uno"
  | nano => "arduino_nano"
  | mega => "arduino_mega"
  | proMini => "arduino_pro_mini"
  | esp32 => "esp32"
  | esp8266 => "esp8266"

def optionName : Board → String
  | uno => "uno"
  | nano => "nano"
  | mega => "mega"
  | proMini => "pro-mini"
  | esp32 => "esp32"
  | esp8266 => "esp8266"

/-! ### Pin names -/

def pinsFrom (letter : String) (first last : Nat) : List String :=
  (List.range' first (last + 1 - first)).map (fun i => letter ++ toString i)

def digitalPins (first last : Nat) : List String := pinsFrom "" first last

def analogPins (last : Nat) : List String := pinsFrom "A" 0 last

/-! ### Profiles -/

def atmega328 (name description fqbn : String) (lastAnalog : Nat) : BoardProfile where
  name := name
  description := description
  fqbn := fqbn
  analog := analogPins lastAnalog
  digital := digitalPins 0 13 ++ analogPins lastAnalog
  pwm := ["3", "5", "6", "9", "10", "11"]
  serial := [⟨"Serial", "0", "1"⟩]
  spi := [⟨"SPI", "11", "12", "13"⟩]
  twoWire := [⟨"Wire", "A4", "A5"⟩]
  builtinLed := "13"
  interrupt := ["2", "3"]

def megaProfile : BoardProfile where
  name := "Arduino Mega"
  description := "Arduino Mega-compatible board"
  fqbn := "arduino:avr:mega:cpu=atmega2560"
  analog := analogPins 15
  digital := digitalPins 0 53 ++ analogPins 15
  pwm := digitalPins 2 13 ++ digitalPins 44 46
  serial :=
    [⟨"Serial", "0", "1"⟩, ⟨"Serial1", "19", "18"⟩, ⟨"Serial2", "17", "16"⟩,
      ⟨"Serial3", "15", "14"⟩]
  spi := [⟨"SPI", "51", "50", "52"⟩]
  twoWire := [⟨"Wire", "20", "21"⟩]
  builtinLed := "13"
  interrupt := ["2", "3", "21", "20", "19", "18"]

def esp32Profile : BoardProfile where
  name := "ESP32"
  description := "ESP32 development board"
  fqbn := "esp32:esp32:esp32"
  analog := analogPins 19 ++ ["32", "33", "34", "35", "36", "39"]
  digital :=
    digitalPins 0 5 ++ digitalPins 12 19 ++ digitalPins 21 23 ++ digitalPins 25 27 ++
      digitalPins 32 33
  pwm := digitalPins 0 33
  serial := [⟨"Serial", "3", "1"⟩, ⟨"Serial1", "9", "10"⟩, ⟨"Serial2", "16", "17"⟩]
  spi := [⟨"SPI", "23", "19", "18"⟩, ⟨"HSPI", "13", "12", "14"⟩, ⟨"VSPI", "23", "19", "18"⟩]
  twoWire := [⟨"Wire", "21", "22"⟩]
  builtinLed := "2"
  interrupt := digitalPins 0 39

def esp8266Profile : BoardProfile where
  name := "ESP8266"
  description := "ESP8266 development board"
  fqbn := "esp8266:esp8266:generic"
  analog := ["A0"]
  digital := pinsFrom "D" 0 8
  pwm := pinsFrom "D" 1 8
  serial := [⟨"Serial", "RX", "TX"⟩]
  spi := [⟨"SPI", "D7", "D6", "D5"⟩]
  twoWire := [⟨"Wire", "D2", "D1"⟩]
  builtinLed := "D4"
  interrupt := pinsFrom "D" 0 8

def profile : Board → BoardProfile
  | uno => atmega328 "Arduino Uno" "Arduino Uno standard compatible board" "arduino:avr:uno" 5
  | nano => atmega328 "Arduino Nano" "Arduino Nano with ATmega328p board" "arduino:avr:nano" 7
  | mega => megaProfile
  | proMini =>
      atmega328 "Arduino Pro Mini" "Arduino Pro Mini with ATmega328p board"
        "arduino:avr:pro:cpu=16MHzatmega328" 7
  | esp32 => esp32Profile
  | esp8266 => esp8266Profile

def name (b : Board) : String := b.profile.name

def index (b : Board) : Nat := all.idxOf b

end Board

end BlockSketch
