import Mathlib.Init

/-!
# Message tags

The values of `tlv_tag_t` that the modelled code sends or looks at.

They are bytes and not an enumeration. A receiver delivers whatever byte stands in the place of the
tag, so a frame with a tag that nobody ever defined is an ordinary frame, and what is done with it
is part of the dispatch. An enumeration would have to lose these frames on the way in, or carry a
constructor for all the rest; with bytes the branches of the source are comparisons, as they are in
C.

The numbers are grouped as in the header: `0x10` and up for reports and events of the node, `0x20`
and up for commands to it, `0x30` and up for queries, `0x40` and up for replies, `0x50` and up
between the ground station and the central computer.

`TLV_TAG_INVALID` is left out, since no code sends it or compares with it, and so are the names of
`tlv_names.c`, which only the tests and the demonstration print.
-/

namespace SubmarineMonitor

def tlvTagDataReport : UInt8 := 0x10

def tlvTagModeChange : UInt8 := 0x11

def tlvTagObjectDetected : UInt8 := 0x12

def tlvTagObjectCleared : UInt8 := 0x13

def tlvTagKeepAlive : UInt8 := 0x14

def tlvTagStartup : UInt8 := 0x15

def tlvTagTimeSyncRequest : UInt8 := 0x16

def tlvTagSetTempNormal : UInt8 := 0x20

def tlvTagSetTempWarning : UInt8 := 0x21

def tlvTagSetHumNormal : UInt8 := 0x22

def tlvTagSetHumWarning : UInt8 := 0x23

def tlvTagSetLightNormal : UInt8 := 0x24

def tlvTagSetLightWarning : UInt8 := 0x25

def tlvTagSetBattNormal : UInt8 := 0x26

def tlvTagSetBattWarning : UInt8 := 0x27

def tlvTagGetTime : UInt8 := 0x28

def tlvTagTimeSyncReply : UInt8 := 0x29

def tlvTagGetConfig : UInt8 := 0x2A

def tlvTagQueryData : UInt8 := 0x30

def tlvTagQueryEvents : UInt8 := 0x31

def tlvTagTimeReply : UInt8 := 0x40

def tlvTagQueryRecord : UInt8 := 0x41

def tlvTagQueryEnd : UInt8 := 0x42

def tlvTagAck : UInt8 := 0x43

def tlvTagNack : UInt8 := 0x44

def tlvTagConfigReply : UInt8 := 0x45

def tlvTagGsQueryData : UInt8 := 0x50

def tlvTagGsQueryEvents : UInt8 := 0x51

def tlvTagGsRecord : UInt8 := 0x52

def tlvTagGsEnd : UInt8 := 0x53

end SubmarineMonitor
